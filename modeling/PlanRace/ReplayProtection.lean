import PlanRace.AuthV2

/-!
# Replay protection over whole runs

Every sequence of deliveries that share one SQLite replay store, from any
table, with the store's clock read once in each delivery. The verifier accepts
a response up to the instant of its expiry, the store forgets it at that
instant, and the results below say exactly what follows.
-/

namespace ReplayProtection

open JsonText ByteStrings CanonicalJson WireText IndexAst TaskModels AuthV2 Runs

/-- One call of `verify_signed_response` with the store's reading of its clock. -/
structure Delivery where
  response : SignedOptimizationResponse
  verification : Verification
  clockUnixMs : Int

def Delivery.row (d : Delivery) : ReplayRow := replayRow d.response

abbrev DeliveryEvent := Event ReplayTable Delivery (Except VerificationError OptimizationBundle)

section Deliver

variable (signatureVerifies : SignatureCheck) (maxEntries : Nat)

def deliver (t : ReplayTable) (d : Delivery) :
    Except VerificationError OptimizationBundle × ReplayTable :=
  verifySignedResponse signatureVerifies (checkAndStore maxEntries d.clockUnixMs) d.response
    d.verification t

def isAccepted : Except VerificationError OptimizationBundle → Bool
  | .ok _ => true
  | .error _ => false

/-- The rows of the accepted responses, in the order of their acceptance. -/
def accepted (events : List DeliveryEvent) : List ReplayRow :=
  (events.filter fun e => isAccepted e.answer).map fun e => e.input.row

/-- The delivery is decided by the primary key alone: it passes every check of
the verifier, its values fit, and the pruned table has room. -/
def ReachesKey (t : ReplayTable) (d : Delivery) : Prop :=
  checkResponse signatureVerifies d.response d.verification = .ok () ∧
    fitsInteger d.clockUnixMs = true ∧ (t.prune d.clockUnixMs).rows.length < maxEntries ∧
    d.row.fits = true

/-- What one delivery does: it inserts a fresh row into the pruned table, or it
is refused and no row is added. -/
theorem deliver_cases (t : ReplayTable) (d : Delivery) :
    (∃ fresh, ReachesKey signatureVerifies maxEntries t d ∧
      deliver signatureVerifies maxEntries t d =
        (.ok d.response.artifact, (t.prune d.clockUnixMs).insert d.row fresh)) ∨
    (isAccepted (deliver signatureVerifies maxEntries t d).1 = false ∧
      (ReachesKey signatureVerifies maxEntries t d → d.row.key ∈ (t.prune d.clockUnixMs).keys) ∧
      ((deliver signatureVerifies maxEntries t d).2 = t ∨
        (deliver signatureVerifies maxEntries t d).2 = t.prune d.clockUnixMs)) := by
  unfold deliver verifySignedResponse ReachesKey
  cases hcheck : checkResponse signatureVerifies d.response d.verification with
  | error e => exact .inr ⟨rfl, by simp, .inl rfl⟩
  | ok u =>
    unfold checkAndStore
    by_cases hclock : fitsInteger d.clockUnixMs = true
    · by_cases hroom : (t.prune d.clockUnixMs).rows.length ≥ maxEntries
      · refine .inr ?_
        rw [if_pos hclock, if_pos hroom]
        exact ⟨rfl, fun h => absurd hroom (Nat.not_le.mpr h.2.2.1), .inr rfl⟩
      · by_cases hfits : (replayRow d.response).fits = true
        · by_cases fresh : (replayRow d.response).key ∉ (t.prune d.clockUnixMs).keys
          · refine .inl ⟨fresh, ⟨rfl, hclock, Nat.not_le.mp hroom, hfits⟩, ?_⟩
            rw [if_pos hclock, if_neg hroom, if_pos hfits, dif_pos fresh]
            rfl
          · refine .inr ?_
            rw [if_pos hclock, if_neg hroom, if_pos hfits, dif_neg fresh]
            exact ⟨rfl, fun _ => not_not.mp fresh, .inr rfl⟩
        · refine .inr ?_
          rw [if_pos hclock, if_neg hroom, if_neg hfits]
          exact ⟨rfl, fun h => absurd h.2.2.2 hfits, .inl rfl⟩
    · refine .inr ?_
      rw [if_neg hclock]
      exact ⟨rfl, fun h => absurd h.2.1 hclock, .inl rfl⟩

variable {signatureVerifies maxEntries}

@[simp] theorem accepted_nil : accepted [] = [] := rfl

@[simp] theorem accepted_append (past more : List DeliveryEvent) :
    accepted (past ++ more) = accepted past ++ accepted more := by
  simp [accepted]

theorem accepted_event_of_ok {t t' : ReplayTable} {d : Delivery} {bundle : OptimizationBundle}
    (h : deliver signatureVerifies maxEntries t d = (.ok bundle, t')) :
    accepted [event (deliver signatureVerifies maxEntries) t d] = [d.row] := by
  simp [accepted, event, h, isAccepted]

theorem accepted_event_of_refused {t : ReplayTable} {d : Delivery}
    (h : isAccepted (deliver signatureVerifies maxEntries t d).1 = false) :
    accepted [event (deliver signatureVerifies maxEntries) t d] = [] := by
  simp [accepted, event, h]

/-- An accepted row stays in the table while it outlives every clock reading,
and a row of the table under an accepted key is an accepted row. -/
structure Remembers (past : List DeliveryEvent) (t : ReplayTable) : Prop where
  kept : ∀ r ∈ accepted past,
    (∀ e ∈ past, e.input.clockUnixMs < r.expiresAtUnixMs) → r ∈ t.rows
  known : ∀ r ∈ t.rows, r.key ∈ (accepted past).map ReplayRow.key → r ∈ accepted past

theorem remembers_start (t : ReplayTable) : Remembers [] t := ⟨by simp, by simp⟩

theorem remembers_step (past : List DeliveryEvent) (t : ReplayTable) (d : Delivery)
    (inv : Remembers past t) :
    Remembers (past ++ [event (deliver signatureVerifies maxEntries) t d])
      (deliver signatureVerifies maxEntries t d).2 := by
  have stillKept : ∀ r ∈ accepted past,
      (∀ e ∈ past ++ [event (deliver signatureVerifies maxEntries) t d],
        e.input.clockUnixMs < r.expiresAtUnixMs) → r ∈ t.rows ∧ r ∈ (t.prune d.clockUnixMs).rows := by
    intro r hr hlive
    have hin := inv.kept r hr fun e he => hlive e (List.mem_append_left _ he)
    have hnow := hlive _ (List.mem_append_right _ (List.mem_singleton_self _))
    exact ⟨hin, ReplayTable.mem_prune.mpr ⟨hin, hnow⟩⟩
  rcases deliver_cases signatureVerifies maxEntries t d with
    ⟨fresh, _, hstep⟩ | ⟨hrefused, _, htable⟩
  · constructor
    · intro r hr hlive
      rw [hstep, ReplayTable.mem_insert]
      rw [accepted_append, accepted_event_of_ok hstep, List.mem_append, List.mem_singleton] at hr
      rcases hr with hr | rfl
      · exact .inr (stillKept r hr hlive).2
      · exact .inl rfl
    · intro r hr hkey
      rw [hstep, ReplayTable.mem_insert] at hr
      rw [accepted_append, accepted_event_of_ok hstep] at hkey ⊢
      rcases hr with rfl | hr
      · simp
      · rw [List.map_append, List.mem_append, List.map_singleton, List.mem_singleton] at hkey
        rcases hkey with hkey | hkey
        · exact List.mem_append_left _ (inv.known r (ReplayTable.mem_prune.mp hr).1 hkey)
        · exact absurd (hkey ▸ ReplayTable.key_mem hr) fresh
  · have hempty := accepted_event_of_refused hrefused
    constructor
    · intro r hr hlive
      rw [accepted_append, hempty, List.append_nil] at hr
      obtain ⟨hold, hpruned⟩ := stillKept r hr hlive
      rcases htable with h | h <;> rw [h]
      · exact hold
      · exact hpruned
    · intro r hr hkey
      rw [accepted_append, hempty, List.append_nil] at hkey ⊢
      rcases htable with h | h <;> rw [h] at hr
      · exact inv.known r hr hkey
      · exact inv.known r (ReplayTable.mem_prune.mp hr).1 hkey

/-- At this delivery no accepted row of the same key has expired by the
store's clock, unless something else refuses the response. -/
def Unexpired (signatureVerifies : SignatureCheck) (maxEntries : Nat) (past : List DeliveryEvent)
    (t : ReplayTable) (d : Delivery) : Prop :=
  ReachesKey signatureVerifies maxEntries t d →
    ∀ r ∈ accepted past, r.key = d.row.key → d.clockUnixMs < r.expiresAtUnixMs

/-- One delivery repeats an accepted key exactly when an expired row allows it. -/
theorem repeats_key_iff {past : List DeliveryEvent} {t : ReplayTable} {d : Delivery}
    (inv : Remembers past t) (distinct : ((accepted past).map ReplayRow.key).Nodup)
    (clocks : ∀ e ∈ past, e.input.clockUnixMs ≤ d.clockUnixMs) :
    ((accepted (past ++ [event (deliver signatureVerifies maxEntries) t d])).map
        ReplayRow.key).Nodup ↔
      Unexpired signatureVerifies maxEntries past t d := by
  rw [accepted_append]
  rcases deliver_cases signatureVerifies maxEntries t d with
    ⟨fresh, hreach, hstep⟩ | ⟨hrefused, hpresent, _⟩
  · rw [accepted_event_of_ok hstep]
    constructor
    · intro hnodup _ r hr hkey
      rw [List.map_append, List.nodup_append] at hnodup
      exact absurd hkey (hnodup.2.2 r.key (List.mem_map_of_mem hr) d.row.key (by simp))
    · intro hlive
      rw [List.map_append, List.map_singleton, ← List.concat_eq_append, List.nodup_concat]
      refine ⟨?_, distinct⟩
      intro hmem
      obtain ⟨r, hr, hkey⟩ := List.mem_map.mp hmem
      have hnow := hlive hreach r hr hkey
      have hkept := inv.kept r hr fun e he => Int.lt_of_le_of_lt (clocks e he) hnow
      have hin := ReplayTable.key_mem (ReplayTable.mem_prune.mpr ⟨hkept, hnow⟩)
      exact fresh (hkey ▸ hin)
  · rw [accepted_event_of_refused hrefused, List.append_nil]
    refine ⟨fun _ hreach r hr hkey => ?_, fun _ => distinct⟩
    obtain ⟨row, hrow, hsame⟩ := List.mem_map.mp (hpresent hreach)
    obtain ⟨hin, hlive⟩ := ReplayTable.mem_prune.mp hrow
    have hacc := inv.known row hin (by rw [hsame, ← hkey]; exact List.mem_map_of_mem hr)
    have heq := List.inj_on_of_nodup_map distinct hacc hr (hsame.trans hkey.symm)
    rw [← heq]
    exact hlive

/-- With clock readings that never decrease, no key is accepted twice in a run
exactly when no delivery of the run meets an expired row of its own key. -/
theorem verifySignedResponse_atMostOnce_iff (signatureVerifies : SignatureCheck)
    (maxEntries : Nat) (t : ReplayTable) (deliveries : List Delivery)
    (clocks : (deliveries.map Delivery.clockUnixMs).Pairwise (· ≤ ·)) :
    ((accepted (trace (deliver signatureVerifies maxEntries) t deliveries)).map
        ReplayRow.key).Nodup ↔
      EachEvent (fun past e => Unexpired signatureVerifies maxEntries past e.before e.input)
        (trace (deliver signatureVerifies maxEntries) t deliveries) := by
  induction deliveries using List.reverseRecOn with
  | nil => exact ⟨fun _ => eachEvent_nil _, fun _ => List.nodup_nil⟩
  | append_singleton deliveries d ih =>
    rw [List.map_append, List.pairwise_append] at clocks
    have inv := history_invariant (deliver signatureVerifies maxEntries) Remembers
      (remembers_start t) remembers_step deliveries
    have earlier : ∀ e ∈ trace (deliver signatureVerifies maxEntries) t deliveries,
        e.input.clockUnixMs ≤ d.clockUnixMs := by
      intro e he
      exact clocks.2.2 _ (List.mem_map_of_mem (input_mem_of_trace _ he)) _ (by simp)
    rw [trace_concat, eachEvent_concat, ← ih clocks.1]
    constructor
    · intro hnodup
      have distinct : ((accepted (trace (deliver signatureVerifies maxEntries) t deliveries)).map
          ReplayRow.key).Nodup := by
        rw [accepted_append, List.map_append] at hnodup
        exact (List.nodup_append.mp hnodup).1
      exact ⟨distinct, (repeats_key_iff inv distinct earlier).mp hnodup⟩
    · rintro ⟨distinct, hlast⟩
      exact (repeats_key_iff inv distinct earlier).mpr hlast

end Deliver

/-! A response delivered one millisecond before its expiry and again at its expiry. -/
section Boundary

/-- A deterministic signature scheme for one hotkey. -/
def boundarySigner : ResponseSigner :=
  ⟨Sample.minerHotkey.val, fun message => Sha256.sha256 message ++ Sha256.sha256 message⟩

def boundarySignatureVerifies : SignatureCheck := fun hotkey message signature =>
  decide (hotkey = Sample.minerHotkey) && decide (signature = boundarySigner.sign message)

def boundaryPlaceholder : SignedOptimizationResponse :=
  placeholderResponse Sample.request Sample.artifact 1000 2000 Sample.artifact_ofTask Sample.lifetime

def boundaryResponse : SignedOptimizationResponse :=
  withSignature boundaryPlaceholder
    (signatureHex (boundarySigner.sign (optimizationResponseSigningBytes boundaryPlaceholder))
      (by simp [boundarySigner, Sha256.length_sha256]))

def boundaryDelivery (nowUnixMs : Int) : Delivery where
  response := boundaryResponse
  verification :=
    { request := Sample.request
      expectedMinerUid := 0
      metagraphHotkeys := fun _ => some Sample.minerHotkey.val
      nowUnixMs := nowUnixMs }
  clockUnixMs := nowUnixMs

def boundaryRun : List Delivery := [boundaryDelivery 1999, boundaryDelivery 2000]

/-- The theorem on the run that delivers one response twice. -/
theorem boundaryRun_atMostOnce_iff :
    ((accepted (trace (deliver boundarySignatureVerifies 100000) .empty boundaryRun)).map
        ReplayRow.key).Nodup ↔
      EachEvent (fun past e => Unexpired boundarySignatureVerifies 100000 past e.before e.input)
        (trace (deliver boundarySignatureVerifies 100000) .empty boundaryRun) :=
  verifySignedResponse_atMostOnce_iff boundarySignatureVerifies 100000 .empty boundaryRun
    (by decide)

theorem boundaryResponse_signed :
    signOptimizationResponse Sample.request Sample.artifact boundarySigner 1000 2000 =
      .ok boundaryResponse := by
  have task : Sample.request.task.taskId = Sample.artifact.taskId := rfl
  have engine : ¬ Sample.artifact.engineImageDigest ≠ Sample.request.task.engineImageDigest :=
    not_not.mpr rfl
  unfold signOptimizationResponse
  rw [if_neg (by simp [boundarySigner, Sample.request]), dif_pos task, if_neg engine,
    if_neg (by decide), if_neg (by decide), dif_pos (by decide)]
  exact dif_pos (by simp [boundarySigner, Sha256.length_sha256])

theorem boundaryDelivery_accepted (now : Int) (started : 1000 ≤ now) (alive : now ≤ 2000)
    {t : ReplayTable} (forgotten : (t.prune now).rows = []) :
    ∃ fresh, deliver boundarySignatureVerifies 100000 t (boundaryDelivery now) =
      (.ok Sample.artifact, (t.prune now).insert (boundaryDelivery now).row fresh) := by
  have reach : ReachesKey boundarySignatureVerifies 100000 t (boundaryDelivery now) := by
    have fits : (replayRow boundaryResponse).fits = true := by decide +kernel
    refine ⟨?_, ?_, ?_, fits⟩
    · have skew : (0 : Int) ≤ 5000 := by decide
      exact checkResponse_signOptimizationResponse boundaryResponse_signed
        (by simp [boundarySignatureVerifies, boundaryDelivery, Sample.request]) rfl skew
        started alive
    · have clock : (boundaryDelivery now).clockUnixMs = now := rfl
      simp only [clock, fitsInteger, Bool.and_eq_true, decide_eq_true_eq]
      omega
    · change (t.prune now).rows.length < _
      rw [forgotten]
      decide
  rcases deliver_cases boundarySignatureVerifies 100000 t (boundaryDelivery now) with ⟨fresh, _, h⟩ | ⟨_, present, _⟩
  · exact ⟨fresh, h⟩
  · have hin := present reach
    change _ ∈ (t.prune now).rows.map ReplayRow.key at hin
    rw [forgotten] at hin
    cases hin

/-- Both deliveries are accepted, although no clock runs backwards and the
store's clock never lags behind the verifier's. -/
theorem accepts_twice_at_expiry :
    (boundaryRun.map Delivery.clockUnixMs).Pairwise (· ≤ ·) ∧
      (∀ d ∈ boundaryRun, d.verification.nowUnixMs ≤ d.clockUnixMs) ∧
      ¬ ((accepted (trace (deliver boundarySignatureVerifies 100000) .empty boundaryRun)).map
        ReplayRow.key).Nodup := by
  refine ⟨by decide, by simp [boundaryRun, boundaryDelivery], ?_⟩
  obtain ⟨fresh₁, h₁⟩ := boundaryDelivery_accepted 1999 (by decide) (by decide)
    (t := .empty) rfl
  have forgotten : (((ReplayTable.empty.prune 1999).insert (boundaryDelivery 1999).row
      fresh₁).prune 2000).rows = [] := rfl
  obtain ⟨fresh₂, h₂⟩ := boundaryDelivery_accepted 2000 (by decide) (by decide) forgotten
  have run : trace (deliver boundarySignatureVerifies 100000) .empty boundaryRun =
      [event (deliver boundarySignatureVerifies 100000) .empty (boundaryDelivery 1999)] ++
        [event (deliver boundarySignatureVerifies 100000)
          (deliver boundarySignatureVerifies 100000 .empty (boundaryDelivery 1999)).2
          (boundaryDelivery 2000)] := rfl
  rw [run, accepted_append, accepted_event_of_ok h₁, h₁, accepted_event_of_ok h₂]
  intro distinct
  exact absurd rfl (List.rel_of_pairwise_cons distinct (List.mem_singleton_self _))

end Boundary

end ReplayProtection
