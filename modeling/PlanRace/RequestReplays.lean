import PlanRace.ExchangeRuns

/-!
# Requests that are sent again

Whoever has seen a signed request can send it again, on any connection and at
any time. The endpoint spends the nonce of a request before it works on it, and
a nonce that is spent stays in the store until a clock reading leaves it behind.
-/

namespace RequestReplays

open JsonText ByteStrings PythonObjects TaskModels AuthV2 NonceStore RequestAuth OptimizeEndpoint
  ExchangeRuns Runs

/-- What `btauth/1` does with the nonce store: it asks once, or refuses without
asking, and names the caller it has asked for when the nonce was fresh. -/
def Asks (verify : HttpAuth NonceTable) (authentic : Text → Int → Signed → Prop) : Prop :=
  ∀ {check : NonceCheck NonceTable} {headers : List (Bytes × Bytes)} {signed : Signed}
    {t t' : NonceTable} {outcome : Except VerifyFault Text},
    verify check headers signed t = (outcome, t') →
      (t' = t ∧ ∀ named, outcome ≠ .ok named) ∨
      ∃ caller nonce, t' = (check caller nonce t).2 ∧ ∀ named, outcome = .ok named →
        named = caller ∧ (check caller nonce t).1 = .ok true ∧ authentic caller nonce signed

section Runs

variable {service : MinerService NonceTable} {store : SQLiteNonceStore}
  {signatureVerifies : SignatureCheck} {maxEntries : Nat}
  {authentic : Text → Int → Signed → Prop}

/-- The reading of the store's clock in a step. -/
def clockOf : Step → Option Int
  | .arrive _ _ clockNs _ => some clockNs
  | .finish _ _ _ => none
  | .deliver _ _ => none

/-- The event admits a request, whose signature covers this nonce of its sender. -/
structure AdmittedUnder (service : MinerService NonceTable) (store : SQLiteNonceStore)
    (authentic : Text → Int → Signed → Prop) (e : ExchangeEvent) (row : AcceptedNonce)
    (request : OptimizationRequestV2) (clockNs : Int) : Prop where
  answer : e.answer = .admitted request
  clock : clockOf e.input = some clockNs
  sender : request.validatorHotkey.val = row.hotkeySs58
  signed : ∃ method path body, service.readRequest body = some request ∧
    authentic row.hotkeySs58 row.nonceNs ⟨method, path, body, service.signer.ss58Address⟩
  spent : store.checkAndStore e.before.nonces ⟨row, clockNs⟩ = (.ok true, e.after.nonces)

variable (store) in
/-- What an authentication does to the store. -/
theorem nonces_authenticate (asks : Asks service.verify authentic) (clockNs : Int)
    (http : HttpRequest) (t : NonceTable) :
    (authenticate service (nonceCheck store clockNs) http t).2 = t ∨
      ∃ row, (authenticate service (nonceCheck store clockNs) http t).2 =
        (store.checkAndStore t ⟨row, clockNs⟩).2 := by
  unfold authenticate authenticateRequest
  cases readBoundedBody http maxV2RequestBytes with
  | error fault => exact .inl rfl
  | ok body =>
    dsimp only
    cases rawTarget http with
    | error fault => exact .inl rfl
    | ok target =>
      dsimp only
      rcases verified : service.verify (nonceCheck store clockNs) http.headers
        ⟨http.method, target, body, service.signer.ss58Address⟩ t with ⟨outcome, t'⟩
      have asked : t' = t ∨ ∃ row, t' = (store.checkAndStore t ⟨row, clockNs⟩).2 := by
        rcases asks verified with ⟨same, -⟩ | ⟨caller, nonce, same, -⟩
        · exact .inl same
        · exact .inr ⟨⟨caller, nonce⟩, same⟩
      cases outcome with
      | error fault =>
        cases fault with
        | auth error => exact asked
        | raised exception => exact asked
      | ok caller =>
        dsimp only
        cases service.authorizeHotkey caller with
        | error exception => exact asked
        | ok allowed => cases allowed <;> exact asked

/-- No step touches the store but by one call of an arrival. -/
theorem nonces_step (asks : Asks service.verify authentic) (w : World) (i : Step) :
    (step service store signatureVerifies maxEntries w i).2.nonces = w.nonces ∨
      ∃ clockNs row, clockOf i = some clockNs ∧
        (step service store signatureVerifies maxEntries w i).2.nonces =
          (store.checkAndStore w.nonces ⟨row, clockNs⟩).2 := by
  cases i with
  | arrive connection http clockNs now =>
    change (arrive service store w connection http clockNs now).2.nonces = _ ∨ _
    have touched := nonces_authenticate store asks clockNs http w.nonces
    have same : (arrive service store w connection http clockNs now).2.nonces = w.nonces ∨
        (arrive service store w connection http clockNs now).2.nonces =
          (authenticate service (nonceCheck store clockNs) http w.nonces).2 := by
      unfold arrive
      by_cases busy : connection ∈ w.serving.map Prod.fst
      · rw [if_pos busy]
        exact .inl rfl
      · rw [if_neg busy]
        refine .inr ?_
        rcases authenticate service (nonceCheck store clockNs) http w.nonces with
          ⟨fault | authenticated, nonces⟩
        · rfl
        · dsimp only
          cases admission service authenticated now <;> rfl
    rcases same with same | same
    · exact .inl same
    · rcases touched with kept | ⟨row, asked⟩
      · exact .inl (same.trans kept)
      · exact .inr ⟨clockNs, row, rfl, same.trans asked⟩
  | finish connection reply completedAt =>
    refine .inl ?_
    change (finish service w connection reply completedAt).2.nonces = w.nonces
    rcases finish_cases service w connection reply completedAt with ⟨request, -, outcome⟩ | outcome
    · rw [outcome]
    · rw [outcome]
  | deliver response verification => exact .inl rfl

/-- An admission has passed both the authentication and the checks behind it. -/
theorem passed_of_admitted {w : World} {connection : Nat} {http : HttpRequest} {clockNs now : Int}
    {request : OptimizationRequestV2}
    (answer : (arrive service store w connection http clockNs now).1 = .admitted request) :
    ∃ authenticated nonces, connection ∉ w.serving.map Prod.fst ∧
      authenticate service (nonceCheck store clockNs) http w.nonces = (.ok authenticated, nonces) ∧
      admission service authenticated now = .ok request := by
  unfold arrive at answer
  by_cases busy : connection ∈ w.serving.map Prod.fst
  · rw [if_pos busy] at answer
    cases answer
  · rw [if_neg busy] at answer
    rcases passed : authenticate service (nonceCheck store clockNs) http w.nonces with
      ⟨fault | authenticated, nonces⟩
    · rw [passed] at answer
      cases answer
    · rw [passed] at answer
      dsimp only at answer
      cases admitted : admission service authenticated now with
      | error fault =>
        rw [admitted] at answer
        cases answer
      | ok other =>
        rw [admitted] at answer
        obtain rfl := Answer.admitted.inj answer
        exact ⟨authenticated, nonces, busy, rfl, admitted⟩

/-- Whoever is admitted has a nonce spent. -/
theorem admittedUnder_of_answer (asks : Asks service.verify authentic) {w : World} {i : Step}
    {request : OptimizationRequestV2}
    (answer : (step service store signatureVerifies maxEntries w i).1 = .admitted request) :
    ∃ row clockNs, AdmittedUnder service store authentic
      (event (step service store signatureVerifies maxEntries) w i) row request clockNs := by
  cases i with
  | arrive connection http clockNs now =>
    obtain ⟨authenticated, nonces, free, passed, admitted⟩ := passed_of_admitted answer
    have outcome := arrive_of_admitted free passed admitted
    obtain ⟨-, -, verified, -⟩ := authenticateRequest_ok_iff.mp passed
    have checks := admission_ok_iff.mp admitted
    rcases asks verified with ⟨-, refused⟩ | ⟨caller, nonce, after, named⟩
    · exact absurd rfl (refused _)
    · obtain ⟨same, fresh, signed⟩ := named _ rfl
      have state : (event (step service store signatureVerifies maxEntries) w
          (.arrive connection http clockNs now)).after.nonces = nonces :=
        congrArg (fun o => o.2.nonces) outcome
      refine ⟨⟨caller, nonce⟩, clockNs, answer, rfl, checks.caller.symm.trans same,
        ⟨_, _, _, checks.body, signed⟩, ?_⟩
      rw [state, after]
      exact Prod.ext fresh rfl
  | finish connection reply completedAt =>
    change (finish service w connection reply completedAt).1 = _ at answer
    rcases finish_cases service w connection reply completedAt with ⟨served, -, outcome⟩ | outcome
    · rw [outcome] at answer
      cases answer
    · rw [outcome] at answer
      cases answer
  | deliver response verification => cases answer

theorem oldest_le_iff {clockNs nonceNs : Int} :
    store.oldest clockNs ≤ nonceNs ↔ clockNs ≤ nonceNs + store.ttlNs := by
  unfold SQLiteNonceStore.oldest
  omega

/-- The store was asked in the event, and removed the row because the reading of
its clock has left the row behind. -/
structure Forgotten (store : SQLiteNonceStore) (row : AcceptedNonce) (e : ExchangeEvent) : Prop where
  held : row ∈ e.before.nonces.rows
  removed : row ∉ e.after.nonces.rows
  asked : ∃ reading other, clockOf e.input = some reading ∧
    e.after.nonces = (store.checkAndStore e.before.nonces ⟨other, reading⟩).2 ∧
    row.nonceNs + store.ttlNs < reading

/-- A step keeps the rows that it does not forget. -/
theorem row_kept (asks : Asks service.verify authentic) {w : World} {i : Step} {row : AcceptedNonce}
    (held : row ∈ w.nonces.rows)
    (kept : ¬ Forgotten store row (event (step service store signatureVerifies maxEntries) w i)) :
    row ∈ (step service store signatureVerifies maxEntries w i).2.nonces.rows := by
  have touched : (step service store signatureVerifies maxEntries w i).2.nonces = w.nonces ∨ _ :=
    nonces_step asks w i
  rcases touched with same | ⟨reading, other, clock, asked⟩
  · rw [same]
    exact held
  · by_contra removed
    refine kept ⟨held, removed, reading, other, clock, asked, ?_⟩
    by_contra live
    rw [asked] at removed
    exact removed (fresh_row_kept held (oldest_le_iff.mpr (not_lt.mp live)))

/-- A spent nonce is in the table unless it was forgotten since. -/
def Spent (service : MinerService NonceTable) (store : SQLiteNonceStore)
    (authentic : Text → Int → Signed → Prop) (past : List ExchangeEvent) (w : World) : Prop :=
  ∀ before f between, past = before ++ f :: between → ∀ row request clockNs,
    AdmittedUnder service store authentic f row request clockNs →
    (∀ g ∈ between, ¬ Forgotten store row g) → row ∈ w.nonces.rows

theorem spent_step (asks : Asks service.verify authentic) (past : List ExchangeEvent) (w : World)
    (i : Step) (inv : Spent service store authentic past w) :
    Spent service store authentic
      (past ++ [event (step service store signatureVerifies maxEntries) w i])
      (step service store signatureVerifies maxEntries w i).2 := by
  intro before f between split row request clockNs under remembered
  rcases List.eq_nil_or_concat between with rfl | ⟨init, last, rfl⟩
  · obtain ⟨-, same⟩ := List.append_inj' split rfl
    obtain rfl := List.cons.inj same |>.1
    have accepted := of_accepted (congrArg Prod.fst under.spent)
    rw [under.spent] at accepted
    exact accepted.2.2
  · rw [List.concat_eq_append] at split remembered
    rw [← List.cons_append, ← List.append_assoc] at split
    obtain ⟨earlier, same⟩ := List.append_inj' split rfl
    obtain rfl := List.cons.inj same |>.1
    have held := inv before f init earlier row request clockNs under fun g hg =>
      remembered g (List.mem_append_left _ hg)
    exact row_kept asks held (remembered _ (List.mem_append_right _ (List.mem_singleton_self _)))

/-- In every run, whatever is sent again, every admission spends a nonce that the
sender's signature covers; and a nonce that was spent before is spent again only
when a later reading of the store's clock has left it behind: the store was asked
in between and removed it, or is asked now. -/
theorem admitted_once (asks : Asks service.verify authentic) (w : World) (steps : List Step) :
    EachEvent (fun past e =>
      (∀ request, e.answer = .admitted request →
        ∃ row clockNs, AdmittedUnder service store authentic e row request clockNs) ∧
      ∀ row request clockNs, AdmittedUnder service store authentic e row request clockNs →
        ∀ before f between, past = before ++ f :: between → ∀ request' clockNs',
          AdmittedUnder service store authentic f row request' clockNs' →
          (∃ g ∈ between, Forgotten store row g) ∨ row.nonceNs + store.ttlNs < clockNs)
      (trace (step service store signatureVerifies maxEntries) w steps) := by
  refine eachEvent_of_invariant (step service store signatureVerifies maxEntries)
    (Spent service store authentic) _ ?_ (spent_step asks) ?_ steps
  · intro before f between split
    cases before <;> cases split
  · intro past s i inv
    refine ⟨fun request answer => admittedUnder_of_answer asks answer, ?_⟩
    intro row request clockNs under before f between split request' clockNs' earlier
    by_contra never
    rw [not_or] at never
    have present := inv before f between split row request' clockNs' earlier
      fun g hg forgotten => never.1 ⟨g, hg, forgotten⟩
    have now : store.oldest clockNs ≤ row.nonceNs := oldest_le_iff.mpr (not_lt.mp never.2)
    obtain ⟨clock, nonce, -⟩ := of_accepted (congrArg Prod.fst under.spent)
    have refused := @present_refused store s.nonces ⟨row, clockNs⟩ present now clock nonce
    have accepted := refused.symm.trans (congrArg Prod.fst under.spent)
    cases accepted

end Runs

/-! One request is sent three times, the last time after its nonce was left behind. -/
namespace Sample

open UndisturbedExchange ReplayProtection ExchangeRuns.Sample

theorem asks : Asks Sample.service.verify authentic := by
  intro check headers signed t t' outcome h
  change Sample.verify check headers signed t = _ at h
  unfold Sample.verify at h
  by_cases receiver : signed.receiver = TaskModels.Sample.minerHotkey.val
  · rw [if_pos receiver] at h
    refine .inr ⟨TaskModels.Sample.validatorHotkey.val, 7, ?_⟩
    rcases checked : check TaskModels.Sample.validatorHotkey.val 7 t with ⟨exception | fresh, next⟩
    · rw [checked] at h
      cases h
      exact ⟨rfl, fun named same => by cases same⟩
    · rw [checked] at h
      cases fresh with
      | false =>
        cases h
        exact ⟨rfl, fun named same => by cases same⟩
      | true =>
        cases h
        refine ⟨rfl, fun named same => ?_⟩
        cases same
        exact ⟨rfl, rfl, rfl, rfl, receiver⟩
  · rw [if_neg receiver] at h
    cases h
    exact .inl ⟨rfl, fun named same => by cases same⟩

def resent : List Step :=
  [.arrive 0 Sample.http 0 1000, .arrive 1 Sample.http 50 1200, .arrive 2 Sample.http 200 1300]

/-- The theorem on the request that is sent three times. -/
theorem resent_admitted_once :
    EachEvent (fun past e =>
      (∀ request, e.answer = .admitted request →
        ∃ row clockNs, AdmittedUnder Sample.service smallStore authentic e row request clockNs) ∧
      ∀ row request clockNs, AdmittedUnder Sample.service smallStore authentic e row request clockNs →
        ∀ before f between, past = before ++ f :: between → ∀ request' clockNs',
          AdmittedUnder Sample.service smallStore authentic f row request' clockNs' →
          (∃ g ∈ between, Forgotten smallStore row g) ∨ row.nonceNs + smallStore.ttlNs < clockNs)
      (trace (step Sample.service smallStore boundarySignatureVerifies 100) idle resent) :=
  admitted_once asks idle resent

end Sample

end RequestReplays
