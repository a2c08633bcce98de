import PlanRace.AuthV2
import PlanRace.Library.PythonObjects

/-!
# Persistent replay protection for miner requests

`SQLiteNonceStore.check_and_store` on the table it shares with every other call.
Pruning goes by the nonce, the capacity counts rows, and the primary key decides
the rest. A failing transaction leaves the table as it was.
-/

namespace NonceStore

open JsonText PythonObjects AuthV2 Runs

/-- A row of `accepted_nonces`; both columns are the primary key. -/
structure AcceptedNonce where
  hotkeySs58 : Text
  nonceNs : Int
deriving DecidableEq

/-- The table `accepted_nonces`. -/
structure NonceTable where
  rows : List AcceptedNonce
  primaryKey : rows.Nodup

namespace NonceTable

def empty : NonceTable := ⟨[], List.nodup_nil⟩

/-- `DELETE FROM accepted_nonces WHERE nonce_ns < ?`. -/
def prune (oldest : Int) (t : NonceTable) : NonceTable where
  rows := t.rows.filter fun r => !decide (r.nonceNs < oldest)
  primaryKey := t.primaryKey.filter _

def insert (row : AcceptedNonce) (t : NonceTable) (fresh : row ∉ t.rows) : NonceTable where
  rows := row :: t.rows
  primaryKey := List.nodup_cons.mpr ⟨fresh, t.primaryKey⟩

@[simp] theorem mem_prune {oldest : Int} {t : NonceTable} {r : AcceptedNonce} :
    r ∈ (t.prune oldest).rows ↔ r ∈ t.rows ∧ oldest ≤ r.nonceNs := by
  simp [prune]

@[simp] theorem mem_insert {row r : AcceptedNonce} {t : NonceTable} {fresh : row ∉ t.rows} :
    r ∈ (t.insert row fresh).rows ↔ r = row ∨ r ∈ t.rows := by
  simp [insert]

theorem length_prune_le (oldest : Int) (t : NonceTable) :
    (t.prune oldest).rows.length ≤ t.rows.length :=
  List.length_filter_le _ _

end NonceTable

/-- The retention limits that the constructor accepts. -/
structure SQLiteNonceStore where
  ttlNs : Int
  maxEntries : Int
  ttlNs_pos : 1 ≤ ttlNs
  maxEntries_pos : 1 ≤ maxEntries

/-- `SQLiteNonceStore.__init__`. -/
def nonceStore (ttlNs maxEntries : Int) : Except Raised SQLiteNonceStore :=
  if h : ttlNs < 1 ∨ maxEntries < 1 then
    .error (.valueError "nonce retention limits must be positive".toList)
  else .ok ⟨ttlNs, maxEntries, by omega, by omega⟩

/-- One call of `check_and_store` with its reading of the clock. -/
structure NonceCall where
  request : AcceptedNonce
  clockNs : Int

namespace SQLiteNonceStore

variable (store : SQLiteNonceStore)

/-- The smallest nonce that is not older than the time to live. -/
def oldest (clockNs : Int) : Int := clockNs - store.ttlNs

/-- `check_and_store`. An integer outside the range of SQLite raises when it is bound. -/
def checkAndStore (t : NonceTable) (call : NonceCall) : Except Raised Bool × NonceTable :=
  let pruned := t.prune (store.oldest call.clockNs)
  if !fitsInteger (store.oldest call.clockNs) then (.error .overflowError, t)
  else if pruned.rows.length ≥ store.maxEntries then (.ok false, pruned)
  else if !fitsInteger call.request.nonceNs then (.error .overflowError, t)
  else if fresh : call.request ∉ pruned.rows then (.ok true, pruned.insert call.request fresh)
  else (.ok false, pruned)

/-- What one call does: it inserts a fresh row below the capacity, it refuses on
the pruned table, or it raises and changes nothing. -/
theorem checkAndStore_cases (t : NonceTable) (call : NonceCall) :
    (∃ fresh, fitsInteger (store.oldest call.clockNs) = true ∧
      fitsInteger call.request.nonceNs = true ∧
      ((t.prune (store.oldest call.clockNs)).rows.length : Int) < store.maxEntries ∧
      store.checkAndStore t call =
        (.ok true, (t.prune (store.oldest call.clockNs)).insert call.request fresh)) ∨
    store.checkAndStore t call = (.ok false, t.prune (store.oldest call.clockNs)) ∨
    ((fitsInteger (store.oldest call.clockNs) = false ∨
        fitsInteger call.request.nonceNs = false) ∧
      store.checkAndStore t call = (.error .overflowError, t)) := by
  unfold checkAndStore
  by_cases clock : fitsInteger (store.oldest call.clockNs) = true
  · by_cases full : ((t.prune (store.oldest call.clockNs)).rows.length : Int) ≥ store.maxEntries
    · right; left
      simp [clock, full]
    · by_cases nonce : fitsInteger call.request.nonceNs = true
      · by_cases fresh : call.request ∉ (t.prune (store.oldest call.clockNs)).rows
        · left
          refine ⟨fresh, clock, nonce, by omega, ?_⟩
          simp only [clock, nonce, full, fresh, Bool.not_true, Bool.false_eq_true, if_false,
            not_false_eq_true, dite_true]
        · right; left
          simp only [clock, nonce, full, fresh, Bool.not_true, Bool.false_eq_true, if_false,
            dite_false]
      · right; right
        exact ⟨.inr (Bool.eq_false_of_not_eq_true nonce), by simp [clock, full, nonce]⟩
  · right; right
    exact ⟨.inl (Bool.eq_false_of_not_eq_true clock), by simp [clock]⟩

end SQLiteNonceStore

abbrev NonceEvent := Event NonceTable NonceCall (Except Raised Bool)

section Calls

variable {store : SQLiteNonceStore}

/-- No call removes a row that is not older than the time to live. -/
theorem fresh_row_kept {t : NonceTable} {call : NonceCall} {r : AcceptedNonce} (h : r ∈ t.rows)
    (fresh : store.oldest call.clockNs ≤ r.nonceNs) : r ∈ (store.checkAndStore t call).2.rows := by
  have kept := NonceTable.mem_prune.mpr ⟨h, fresh⟩
  rcases store.checkAndStore_cases t call with ⟨_, -, -, -, he⟩ | he | ⟨-, he⟩ <;> rw [he]
  · rw [NonceTable.mem_insert]
    exact .inr kept
  · exact kept
  · exact h

theorem capacity_kept {t : NonceTable} {call : NonceCall}
    (h : (t.rows.length : Int) ≤ store.maxEntries) :
    ((store.checkAndStore t call).2.rows.length : Int) ≤ store.maxEntries := by
  have shorter := t.length_prune_le (store.oldest call.clockNs)
  rcases store.checkAndStore_cases t call with ⟨_, -, -, room, he⟩ | he | ⟨-, he⟩ <;> rw [he]
  · simp only [NonceTable.insert, List.length_cons]
    omega
  · dsimp only
    omega
  · exact h

/-- A row of the table which is not older than the time to live is refused. -/
theorem present_refused {t : NonceTable} {call : NonceCall} (present : call.request ∈ t.rows)
    (fresh : store.oldest call.clockNs ≤ call.request.nonceNs)
    (clock : fitsInteger (store.oldest call.clockNs) = true)
    (nonce : fitsInteger call.request.nonceNs = true) :
    (store.checkAndStore t call).1 = .ok false := by
  have kept := NonceTable.mem_prune.mpr ⟨present, fresh⟩
  rcases store.checkAndStore_cases t call with ⟨absent, -, -, -, -⟩ | he | ⟨raised, -⟩
  · exact absurd kept absent
  · rw [he]
  · rw [clock, nonce] at raised
    rcases raised with h | h <;> cases h

theorem of_accepted {t : NonceTable} {call : NonceCall}
    (h : (store.checkAndStore t call).1 = .ok true) :
    fitsInteger (store.oldest call.clockNs) = true ∧ fitsInteger call.request.nonceNs = true ∧
      call.request ∈ (store.checkAndStore t call).2.rows := by
  rcases store.checkAndStore_cases t call with ⟨_, clock, nonce, -, he⟩ | he | ⟨-, he⟩
  · rw [he, NonceTable.mem_insert]
    exact ⟨clock, nonce, .inl rfl⟩
  · rw [he] at h
    cases h
  · rw [he] at h
    cases h

end Calls

section OverRuns

variable (store : SQLiteNonceStore)

/-- An accepted row was bound, and it stays in the table while no clock reading
has left it behind. -/
def Remembers (past : List NonceEvent) (t : NonceTable) : Prop :=
  ∀ e ∈ past, e.answer = .ok true →
    fitsInteger (store.oldest e.input.clockNs) = true ∧
    fitsInteger e.input.request.nonceNs = true ∧
    ((∀ f ∈ past, store.oldest f.input.clockNs ≤ e.input.request.nonceNs) →
      e.input.request ∈ t.rows)

theorem remembers_step (past : List NonceEvent) (t : NonceTable) (call : NonceCall)
    (inv : Remembers store past t) :
    Remembers store (past ++ [event store.checkAndStore t call]) (store.checkAndStore t call).2 := by
  intro e he accepted
  rcases List.mem_append.mp he with old | new
  · obtain ⟨clock, nonce, kept⟩ := inv e old accepted
    refine ⟨clock, nonce, fun live => ?_⟩
    have now : store.oldest call.clockNs ≤ e.input.request.nonceNs :=
      live _ (List.mem_append_right _ (List.mem_singleton_self _))
    exact fresh_row_kept (kept fun f hf => live f (List.mem_append_left _ hf)) now
  · rw [List.mem_singleton] at new
    subst new
    obtain ⟨clock, nonce, present⟩ := of_accepted accepted
    exact ⟨clock, nonce, fun _ => present⟩

/-- A call repeats an accepted request that is not older than the time to live. -/
def FreshRepeat (past : List NonceEvent) (call : NonceCall) : Prop :=
  call.clockNs ≤ call.request.nonceNs + store.ttlNs ∧
    ∃ e ∈ past, e.input.request = call.request ∧ e.answer = .ok true

theorem freshRepeat_refused {past : List NonceEvent} {t : NonceTable} {call : NonceCall}
    (inv : Remembers store past t) (clocks : ∀ e ∈ past, e.input.clockNs ≤ call.clockNs)
    (h : FreshRepeat store past call) : (store.checkAndStore t call).1 = .ok false := by
  obtain ⟨fresh, e, he, same, accepted⟩ := h
  obtain ⟨clock, nonce, kept⟩ := inv e he accepted
  rw [same] at nonce kept
  have now : store.oldest call.clockNs ≤ call.request.nonceNs := by
    unfold SQLiteNonceStore.oldest
    omega
  have live : ∀ f ∈ past, store.oldest f.input.clockNs ≤ call.request.nonceNs := by
    intro f hf
    have earlier := clocks f hf
    unfold SQLiteNonceStore.oldest at now ⊢
    omega
  -- The clock has not gone back since the acceptance, so its reading fits as well.
  have bound : fitsInteger (store.oldest call.clockNs) = true := by
    have earlier := clocks e he
    simp only [fitsInteger, Bool.and_eq_true, decide_eq_true_eq] at clock nonce ⊢
    unfold SQLiteNonceStore.oldest at clock now ⊢
    omega
  exact present_refused (kept live) now bound nonce

/-- With clock readings that never decrease, in every run from every table, an
accepted request is refused as long as its nonce is not older than the time to
live, no such row is removed, and the table stays within its capacity. -/
theorem nonces_accepted_once (start : NonceTable) (calls : List NonceCall)
    (clocks : (calls.map NonceCall.clockNs).Pairwise (· ≤ ·)) :
    EachEvent (fun past e =>
        (FreshRepeat store past e.input → e.answer = .ok false) ∧
        (∀ r ∈ e.before.rows, e.input.clockNs - store.ttlNs ≤ r.nonceNs → r ∈ e.after.rows) ∧
        ((start.rows.length : Int) ≤ store.maxEntries →
          (e.after.rows.length : Int) ≤ store.maxEntries))
      (trace store.checkAndStore start calls) := by
  have each := eachEvent_of_invariant store.checkAndStore
    (fun past t => Remembers store past t ∧
      ((start.rows.length : Int) ≤ store.maxEntries → (t.rows.length : Int) ≤ store.maxEntries))
    (fun past e => (∀ f ∈ past, f.input.clockNs ≤ e.input.clockNs) →
        (FreshRepeat store past e.input → e.answer = .ok false) ∧
        (∀ r ∈ e.before.rows, e.input.clockNs - store.ttlNs ≤ r.nonceNs → r ∈ e.after.rows) ∧
        ((start.rows.length : Int) ≤ store.maxEntries →
          (e.after.rows.length : Int) ≤ store.maxEntries))
    (s := start) ⟨fun e he => absurd he List.not_mem_nil, id⟩
    (fun past t call inv => ⟨remembers_step store past t call inv.1, fun h => capacity_kept (inv.2 h)⟩)
    (fun past t call inv earlier => ⟨freshRepeat_refused store inv.1 earlier,
      fun r hr fresh => fresh_row_kept hr fresh, fun h => capacity_kept (inv.2 h)⟩) calls
  intro past e future split
  apply each past e future split
  intro f hf
  rw [← trace_inputs store.checkAndStore start calls, split, List.map_append, List.map_append,
    List.map_cons, List.map_cons, List.pairwise_append] at clocks
  exact clocks.2.2 _ (List.mem_map_of_mem (List.mem_map_of_mem hf)) _ List.mem_cons_self

/-- A run whose nonces lie far in the past, at the edge and far in the future. -/
theorem nonces_accepted_once_edge :
    EachEvent (fun past e =>
        (FreshRepeat ⟨100, 2, by decide, by decide⟩ past e.input → e.answer = .ok false) ∧
        (∀ r ∈ e.before.rows, e.input.clockNs - 100 ≤ r.nonceNs → r ∈ e.after.rows) ∧
        (((NonceTable.empty.rows.length : Nat) : Int) ≤ 2 → (e.after.rows.length : Int) ≤ 2))
      (trace (SQLiteNonceStore.checkAndStore ⟨100, 2, by decide, by decide⟩) .empty
        [⟨⟨['a'], -7⟩, 10⟩, ⟨⟨['a'], 20⟩, 10⟩, ⟨⟨['b'], 2 ^ 70⟩, 50⟩, ⟨⟨['a'], 20⟩, 120⟩,
          ⟨⟨['a'], 20⟩, 121⟩]) :=
  nonces_accepted_once ⟨100, 2, by decide, by decide⟩ .empty _ (by decide)

end OverRuns

end NonceStore
