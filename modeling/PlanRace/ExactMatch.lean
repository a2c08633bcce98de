import PlanRace.EvaluateOnce

/-!
# The verdict of the trial loop

The loop of `execute_request` runs up to four queries in each trial and leaves
early in several ways. Its verdict is exact match: the reference completes
everywhere with one digest, and the candidate completes at least once and never
with another digest.
-/

namespace ExactMatch

open JsonText OracleV2 BenchmarkScoring SandboxV2 SandboxRuns EvaluationV2

variable {K : Type} [Field K] [LinearOrder K]

section Outcomes

/-- What a run of the query comes to: a result, or nothing. -/
def resultOf : Run K → Option CanonicalResult
  | .completed result _ => some result
  | .raised _ _ => none

def timedOut (run : Run K) : Bool := (resultOf run).isNone

/-- A run completes or is interrupted. -/
inductive Clean : Run K → Prop where
  | completed (result : CanonicalResult) (elapsedMs : K) : Clean (.completed result elapsedMs)
  | interrupted (message : Text) (elapsedMs : K) (h : isInterrupted message = true) :
    Clean (.raised (.database message) elapsedMs)

def baselineRuns (run : Arm → Track → Run K) : List (Run K) :=
  [run .baseline .cold, run .baseline .warm]

/-- After a cold timeout the candidate does not run again. -/
def candidateRuns (run : Arm → Track → Run K) : List (Run K) :=
  if timedOut (run .candidate .cold) then [run .candidate .cold]
  else [run .candidate .cold, run .candidate .warm]

/-- The runs of a trial that complete have this digest, and the reference completes. -/
structure Exact (digest : Text) (run : Arm → Track → Run K) : Prop where
  baseline : ∀ r ∈ baselineRuns run, ∃ b, resultOf r = some b ∧ b.digest = digest
  candidate : ∀ r ∈ candidateRuns run, ∀ c, resultOf r = some c → c.digest = digest

variable [IsStrictOrderedRing K]

theorem runOnce_completed {r : Run K} {b : CanonicalResult} (h : resultOf r = some b) :
    ∃ t, runOnce r = .ok t ∧ t.value = b := by
  cases r with
  | completed result elapsedMs =>
    cases h
    exact ⟨_, rfl, rfl⟩
  | raised fault elapsedMs => cases h

theorem runOnce_timedOut {r : Run K} (h : resultOf r = none) : ∃ fault, runOnce r = .error fault := by
  cases r with
  | completed result elapsedMs => cases h
  | raised fault elapsedMs => exact ⟨fault, rfl⟩

theorem runCandidateOnce_clean {r : Run K} (clean : Clean r) :
    ∃ t, runCandidateOnce r = .ok t ∧ t.value = resultOf r := by
  cases clean with
  | completed result elapsedMs => exact ⟨_, rfl, rfl⟩
  | interrupted message elapsedMs h => exact ⟨_, if_pos h, rfl⟩

/-- The candidate's runs of one trial, as the loop sees them. -/
structure CandidateRuns (run : Arm → Track → Run K) (cold warm : Option CanonicalResult) : Prop where
  completed : cold.toList ++ warm.toList = (candidateRuns run).filterMap resultOf
  timedOut : (cold.isNone || warm.isNone) = (candidateRuns run).any timedOut

theorem candidateRuns_of_clean {run : Arm → Track → Run K}
    (clean : ∀ arm track, Clean (run arm track)) :
    ∃ cold warm, runCandidateOnce (run .candidate .cold) = .ok cold ∧
      warmCandidate run cold = .ok warm ∧ CandidateRuns run cold.value warm.value := by
  obtain ⟨cold, hcold, value⟩ := runCandidateOnce_clean (clean .candidate .cold)
  by_cases early : (resultOf (run .candidate .cold)).isNone = true
  · refine ⟨cold, cold, hcold, ?_, ?_, ?_⟩
    · rw [warmCandidate, value, if_pos early]
    · rw [value, candidateRuns, timedOut, if_pos early]
      rw [Option.isNone_iff_eq_none] at early
      simp [early]
    · rw [value, candidateRuns, timedOut, if_pos early]
      simp [timedOut]
  · obtain ⟨warm, hwarm, value'⟩ := runCandidateOnce_clean (clean .candidate .warm)
    refine ⟨cold, warm, hcold, ?_, ?_, ?_⟩
    · rw [warmCandidate, value, if_neg early, hwarm]
      rfl
    · rw [value, value', candidateRuns, timedOut, if_neg early]
      cases hc : resultOf (run .candidate .cold) <;> cases hw : resultOf (run .candidate .warm) <;>
        simp [hc, hw]
    · rw [value, value', candidateRuns, timedOut, if_neg early]
      simp [timedOut]

/-- Both orders of a trial come to the same four runs. -/
theorem trialRuns_of_completed {run : Arm → Track → Run K}
    (clean : ∀ arm track, Clean (run arm track)) (order : ExecutionOrder) {b b' : CanonicalResult}
    (cold : resultOf (run .baseline .cold) = some b)
    (warm : resultOf (run .baseline .warm) = some b') :
    ∃ runs, trialRuns order run = .ok runs ∧ runs.baselineCold.value = b ∧
      runs.baselineWarm.value = b' ∧
      CandidateRuns run runs.candidateCold.value runs.candidateWarm.value := by
  obtain ⟨bc, hbc, rfl⟩ := runOnce_completed cold
  obtain ⟨bw, hbw, rfl⟩ := runOnce_completed warm
  obtain ⟨cc, cw, hcc, hcw, candidate⟩ := candidateRuns_of_clean clean
  refine ⟨⟨bc, cc, bw, cw⟩, ?_, rfl, rfl, candidate⟩
  cases order with
  | baselineFirst =>
    unfold trialRuns
    dsimp only
    rw [hbc, hcc, hbw]
    change warmCandidate run cc >>= _ = _
    rw [hcw]
    rfl
  | candidateFirst =>
    unfold trialRuns
    dsimp only
    rw [hcc, hbc, hbw]
    change warmCandidate run cc >>= _ = _
    rw [hcw]
    rfl

theorem trialRuns_of_timeout {run : Arm → Track → Run K}
    (clean : ∀ arm track, Clean (run arm track)) (order : ExecutionOrder)
    (h : ∃ r ∈ baselineRuns run, resultOf r = none) :
    ∃ fault, trialRuns order run = .error fault := by
  obtain ⟨cc, cw, hcc, hcw, -⟩ := candidateRuns_of_clean clean
  have early : resultOf (run .baseline .cold) = none ∨
      (∃ bc, runOnce (run .baseline .cold) = .ok bc) ∧ resultOf (run .baseline .warm) = none := by
    cases hcold : resultOf (run .baseline .cold) with
    | none => exact .inl rfl
    | some b =>
      obtain ⟨bc, hbc, -⟩ := runOnce_completed hcold
      obtain ⟨r, hr, none⟩ := h
      rcases List.mem_pair.mp hr with rfl | rfl
      · rw [hcold] at none
        cases none
      · exact .inr ⟨⟨bc, hbc⟩, none⟩
  rcases early with none | ⟨⟨bc, hbc⟩, none⟩
  · obtain ⟨fault, hfault⟩ := runOnce_timedOut none
    refine ⟨(some .baseline, fault), ?_⟩
    cases order with
    | baselineFirst =>
      unfold trialRuns
      dsimp only
      rw [hfault]
      rfl
    | candidateFirst =>
      unfold trialRuns
      dsimp only
      rw [hcc, hfault]
      rfl
  · obtain ⟨fault, hfault⟩ := runOnce_timedOut none
    refine ⟨(some .baseline, fault), ?_⟩
    cases order with
    | baselineFirst =>
      unfold trialRuns
      dsimp only
      rw [hbc, hcc, hfault]
      rfl
    | candidateFirst =>
      unfold trialRuns
      dsimp only
      rw [hcc, hbc, hfault]
      change warmCandidate run cc >>= _ = _
      rw [hcw]
      rfl

end Outcomes

section Loop

variable [IsStrictOrderedRing K]

/-- Connections open, and every run completes or is interrupted. -/
structure Measured (m : Measurements K) : Prop where
  opened : ∀ i, m.opens i = .ok ()
  clean : ∀ i arm track, Clean (m.run i arm track)

variable {m : Measurements K} {s s' : LoopState K} {order : ExecutionOrder} {i : Nat} {digest : Text}

theorem runTrial_eq (measured : Measured m) :
    runTrial m s (order, i) = match trialRuns order (m.run i) with
      | .error fault => .error (.raised fault)
      | .ok runs => recordTrial m order runs s := by
  unfold runTrial
  rw [measured.opened]
  rfl

omit [IsStrictOrderedRing K] in
theorem mem_completedCandidates {runs : TrialRuns K} {run : Arm → Track → Run K}
    (h : CandidateRuns run runs.candidateCold.value runs.candidateWarm.value)
    {c : CanonicalResult} :
    c ∈ runs.completedCandidates ↔ ∃ r ∈ candidateRuns run, resultOf r = some c := by
  rw [TrialRuns.completedCandidates, h.completed, List.mem_filterMap]

/-- A trial that matches the digest is recorded. -/
theorem runTrial_of_exact (measured : Measured m) (exact : Exact digest (m.run i))
    (reference : ∀ r, s.reference = some r → r.digest = digest) :
    ∃ (b : CanonicalResult) (runs : TrialRuns K), b.digest = digest ∧
      CandidateRuns (m.run i) runs.candidateCold.value runs.candidateWarm.value ∧
      runTrial m s (order, i) = .ok {
        reference := some b
        candidate := runs.completedCandidates.head?.or s.candidate
        trials := s.trials ++ [runs.trial m.workerId m.workerIdBounds order] } := by
  obtain ⟨b, hb, hdigest⟩ := exact.baseline _ List.mem_cons_self
  obtain ⟨b', hb', hdigest'⟩ := exact.baseline _ (List.mem_cons_of_mem _ List.mem_cons_self)
  obtain ⟨runs, hruns, hcold, hwarm, candidate⟩ :=
    trialRuns_of_completed (measured.clean i) order hb hb'
  refine ⟨b, runs, hdigest, candidate, ?_⟩
  have none : runs.mismatched = none := by
    rw [TrialRuns.mismatched, List.find?_eq_none]
    intro c hc
    obtain ⟨r, hr, hresult⟩ := (mem_completedCandidates candidate).mp hc
    rw [hcold, hdigest, exact.candidate r hr c hresult]
    simp
  have known : (s.reference.any fun r => decide (r.digest ≠ b.digest)) = false := by
    cases hs : s.reference with
    | none => rfl
    | some r =>
      rw [Option.any_some, decide_eq_false_iff_not, not_not, hdigest]
      exact reference r hs
  rw [runTrial_eq measured, hruns]
  unfold recordTrial
  dsimp only
  rw [hcold, hwarm, hdigest', hdigest, if_neg (not_not.mpr rfl), none]
  rw [hdigest] at known
  dsimp only
  rw [known]
  rfl

/-- What the loop goes on with has matched. -/
theorem exact_of_runTrial (measured : Measured m) (h : runTrial m s (order, i) = .ok s') :
    ∃ b, s'.reference = some b ∧ Exact b.digest (m.run i) ∧
      ∀ r, s.reference = some r → r.digest = b.digest := by
  rw [runTrial_eq measured] at h
  by_cases late : ∃ r ∈ baselineRuns (m.run i), resultOf r = none
  · obtain ⟨fault, hfault⟩ := trialRuns_of_timeout (measured.clean i) order late
    rw [hfault] at h
    cases h
  push Not at late
  obtain ⟨b, hb⟩ := Option.ne_none_iff_exists'.mp (late _ List.mem_cons_self)
  obtain ⟨b', hb'⟩ := Option.ne_none_iff_exists'.mp
    (late _ (List.mem_cons_of_mem _ List.mem_cons_self))
  obtain ⟨runs, hruns, hcold, hwarm, candidate⟩ :=
    trialRuns_of_completed (measured.clean i) order hb hb'
  rw [hruns] at h
  unfold recordTrial at h
  dsimp only at h
  rw [hcold, hwarm] at h
  by_cases same : b.digest ≠ b'.digest
  · rw [if_pos same] at h
    cases h
  rw [if_neg same] at h
  cases hmismatched : runs.mismatched with
  | some c =>
    rw [hmismatched] at h
    cases h
  | none =>
    rw [hmismatched] at h
    dsimp only at h
    split_ifs at h with other
    cases h
    refine ⟨b, rfl, ⟨?_, ?_⟩, ?_⟩
    · intro r hr
      rcases List.mem_pair.mp hr with rfl | rfl
      · exact ⟨b, hb, rfl⟩
      · exact ⟨b', hb', (not_not.mp same).symm⟩
    · intro r hr c hc
      have all := List.find?_eq_none.mp hmismatched c
        ((mem_completedCandidates candidate).mpr ⟨r, hr, hc⟩)
      rw [hcold] at all
      simpa using all
    · intro r hr
      rw [hr, Option.any_some, decide_eq_true_eq, not_not] at other
      exact other

/-- What the loop's variables tell about the trials that are done. -/
structure Recorded (m : Measurements K) (digest : Text) (done : List (ExecutionOrder × Nat))
    (s : LoopState K) : Prop where
  reference : ∀ r, s.reference = some r → r.digest = digest
  present : s.reference.isSome = !done.isEmpty
  candidate : ∀ c, s.candidate = some c → c.digest = digest
  found : s.candidate.isSome = true ↔
    ∃ item ∈ done, ∃ r ∈ candidateRuns (m.run item.2), timedOut r = false
  trials : List.Forall₂ (fun (t : SandboxTrialV2 K) (item : ExecutionOrder × Nat) =>
    t.order = item.1 ∧ t.candidateTimedOut = (candidateRuns (m.run item.2)).any timedOut)
    s.trials done

omit [IsStrictOrderedRing K] in
theorem recorded_start (m : Measurements K) (digest : Text) : Recorded m digest [] {} :=
  ⟨by simp, rfl, by simp, by simp, .nil⟩

theorem recorded_step (measured : Measured m) {done : List (ExecutionOrder × Nat)}
    (inv : Recorded m digest done s) (exact : Exact digest (m.run i)) :
    ∃ s', runTrial m s (order, i) = .ok s' ∧ Recorded m digest (done ++ [(order, i)]) s' := by
  obtain ⟨b, runs, hb, candidate, hstep⟩ := runTrial_of_exact measured exact inv.reference
  have completed : ∀ c ∈ runs.completedCandidates, c.digest = digest := by
    intro c hc
    obtain ⟨r, hr, hresult⟩ := (mem_completedCandidates candidate).mp hc
    exact exact.candidate r hr c hresult
  have some : runs.completedCandidates.head?.isSome = true ↔
      ∃ r ∈ candidateRuns (m.run i), timedOut r = false := by
    rw [List.isSome_head?]
    constructor
    · intro nonempty
      obtain ⟨c, hc⟩ := List.exists_mem_of_ne_nil _ nonempty
      obtain ⟨r, hr, hresult⟩ := (mem_completedCandidates candidate).mp hc
      exact ⟨r, hr, by rw [timedOut, hresult]; rfl⟩
    · rintro ⟨r, hr, inTime⟩
      rw [timedOut, Option.isNone_eq_false_iff, Option.isSome_iff_exists] at inTime
      obtain ⟨c, hc⟩ := inTime
      exact List.ne_nil_of_mem ((mem_completedCandidates candidate).mpr ⟨r, hr, hc⟩)
  refine ⟨_, hstep, ⟨?_, by simp, ?_, ?_, ?_⟩⟩
  · rintro r ⟨⟩
    exact hb
  · intro c hc
    rcases Option.or_eq_some_iff.mp hc with head | ⟨-, old⟩
    · exact completed c (List.mem_of_mem_head? head)
    · exact inv.candidate c old
  · rw [Option.isSome_or, Bool.or_eq_true, some, inv.found]
    simp only [List.mem_append, List.mem_singleton, or_and_right, exists_or, exists_eq_left]
    exact or_comm
  · exact List.rel_append inv.trials (.cons ⟨rfl, candidate.timedOut⟩ .nil)

/-- The loop gets through trials that all match one digest. -/
theorem recorded_run (measured : Measured m) {done items : List (ExecutionOrder × Nat)}
    (inv : Recorded m digest done s) (exact : ∀ item ∈ items, Exact digest (m.run item.2)) :
    ∃ s', items.foldlM (runTrial m) s = .ok s' ∧ Recorded m digest (done ++ items) s' := by
  induction items generalizing done s with
  | nil => exact ⟨s, rfl, by rwa [List.append_nil]⟩
  | cons item items ih =>
    obtain ⟨order, i⟩ := item
    obtain ⟨s₁, hstep, inv₁⟩ := recorded_step measured inv (exact _ List.mem_cons_self)
    obtain ⟨s', hrun, inv'⟩ := ih inv₁ fun x hx => exact x (List.mem_cons_of_mem _ hx)
    refine ⟨s', ?_, by rwa [List.append_assoc] at inv'⟩
    rw [List.foldlM_cons, hstep]
    exact hrun

/-- A loop that gets through has matched one digest in every trial. -/
theorem exact_of_run (measured : Measured m) {items : List (ExecutionOrder × Nat)}
    (h : items.foldlM (runTrial m) s = .ok s') :
    ∃ digest, (∀ item ∈ items, Exact digest (m.run item.2)) ∧
      ∀ r, s.reference = some r → items = [] ∨ r.digest = digest := by
  induction items generalizing s with
  | nil => exact ⟨[], by simp, fun _ _ => .inl rfl⟩
  | cons item items ih =>
    obtain ⟨order, i⟩ := item
    rw [List.foldlM_cons] at h
    obtain ⟨s₁, hstep, hrun⟩ := Fallible.bind_ok h
    obtain ⟨b, hreference, first, earlier⟩ := exact_of_runTrial measured hstep
    obtain ⟨digest, rest, linked⟩ := ih hrun
    refine ⟨b.digest, ?_, fun r hr => .inr (earlier r hr)⟩
    intro x hx
    rcases List.mem_cons.mp hx with rfl | hx
    · exact first
    · rcases linked b hreference with none | same
      · rw [none] at hx
        cases hx
      · rw [same]
        exact rest x hx

end Loop

section Orders

def interleaved (n : Nat) : List ExecutionOrder :=
  (List.range n).map fun index =>
    if index % 4 = 0 ∨ index % 4 = 3 then ExecutionOrder.baselineFirst else .candidateFirst

theorem interleaved_add_two (n : Nat) (even : n % 2 = 0) :
    interleaved (n + 2) = interleaved n ++ [.baselineFirst, .candidateFirst] ∨
      interleaved (n + 2) = interleaved n ++ [.candidateFirst, .baselineFirst] := by
  have split : interleaved (n + 2) = interleaved n ++
      [if n % 4 = 0 ∨ n % 4 = 3 then ExecutionOrder.baselineFirst else .candidateFirst,
        if (n + 1) % 4 = 0 ∨ (n + 1) % 4 = 3 then ExecutionOrder.baselineFirst
        else .candidateFirst] := by
    rw [interleaved, List.range_succ, List.range_succ, List.append_assoc, List.map_append]
    rfl
  rw [split]
  have four : n % 4 = 0 ∨ n % 4 = 2 := by omega
  rcases four with h | h
  · have next : (n + 1) % 4 = 1 := by omega
    simp [h, next]
  · have next : (n + 1) % 4 = 3 := by omega
    simp [h, next]

/-- Pairs of trials are balanced. -/
theorem count_interleaved (k : Nat) :
    (interleaved (2 * k)).count .baselineFirst = k ∧
      (interleaved (2 * k)).count .candidateFirst = k := by
  induction k with
  | zero => exact ⟨rfl, rfl⟩
  | succ k ih =>
    have even : 2 * k % 2 = 0 := by omega
    obtain ⟨first, second⟩ := ih
    rw [Nat.mul_succ]
    rcases interleaved_add_two (2 * k) even with h | h
    · rw [h, List.count_append, List.count_append, first, second]
      exact ⟨rfl, rfl⟩
    · rw [h, List.count_append, List.count_append, first, second]
      exact ⟨rfl, rfl⟩

/-- An even number of trials needs no repair. -/
theorem balancedInterleaveOrders_eq {n : Nat} (enough : 6 ≤ n) (even : n % 2 = 0) :
    balancedInterleaveOrders n = .ok (interleaved n) := by
  have bounds : ¬ (n < 6 ∨ n % 2 ≠ 0) := by omega
  have halves : 2 * (n / 2) = n := by omega
  obtain ⟨first, second⟩ := count_interleaved (n / 2)
  rw [halves] at first second
  unfold balancedInterleaveOrders
  rw [if_neg bounds]
  exact if_neg (not_not.mpr (first.trans second.symm))

end Orders

section Verdict

variable [IsStrictOrderedRing K]

/-- The result of a number of trials. -/
def trialVerdict (request : SandboxRequestV2 K) (databaseBytes : Nat) (m : Measurements K)
    (setup : Setup) (n : Nat) : SandboxResultV2 K :=
  settle request databaseBytes
    (outside (balancedInterleaveOrders n) >>= fun orders =>
      afterTrials request m setup (runTrials m orders))

/-- The request is admitted and its indexes are installed, so that the loop starts. -/
structure Reaches (sandbox : Sandbox K) (measure : Measure K) (position : Nat)
    (database : DatabaseFile) (request : SandboxRequestV2 K) (m : Measurements K) : Prop where
  passes : Passes sandbox position database request
  installed : measure position (request.bundle.indexes.map indexStatement) = .ok m
  candidate : ∃ bytes, safeDatabaseSize sandbox.policy m.candidateFile = .ok bytes
  planned : ∃ rows, m.planRows = .ok rows

/-- Exact match, over the first trials. -/
structure Matches (m : Measurements K) (n : Nat) : Prop where
  digest : ∃ digest, ∀ i < n, Exact digest (m.run i)
  completed : ∃ i < n, ∃ r ∈ candidateRuns (m.run i), timedOut r = false

/-- What a correct result shows of its trials. -/
structure Balanced (m : Measurements K) (n : Nat) (trials : List (SandboxTrialV2 K)) : Prop where
  length : trials.length = n
  orders : (trials.map SandboxTrialV2.order).count .baselineFirst =
    (trials.map SandboxTrialV2.order).count .candidateFirst
  candidate : ∀ i t, trials[i]? = some t →
    (t.candidateTimedOut = true ↔ ∃ r ∈ candidateRuns (m.run i), timedOut r = true)

variable {sandbox : Sandbox K} {measure : Measure K} {position : Nat} {database : DatabaseFile}
  {request : SandboxRequestV2 K} {m : Measurements K}

theorem run_of_reaches (reaches : Reaches sandbox measure position database request m) :
    ∃ databaseBytes setup, sandbox.run measure position database request =
      trialVerdict request databaseBytes m setup request.trialCount := by
  obtain ⟨databaseBytes, present⟩ := reaches.passes.present
  obtain ⟨candidateBytes, candidate⟩ := reaches.candidate
  obtain ⟨rows, planned⟩ := reaches.planned
  refine ⟨databaseBytes, ⟨databaseBytes, candidateBytes - databaseBytes,
    (rows.take 64).map (List.take 512),
    usedIndexNames request.bundle.indexes ((rows.take 64).map (List.take 512))⟩, ?_⟩
  rw [run_of_passes reaches.passes present, reaches.installed]
  change settle request databaseBytes
    (measureCandidate sandbox.policy databaseBytes request m) = _
  unfold measureCandidate
  rw [candidate, planned]
  rfl

omit [IsStrictOrderedRing K] in
theorem mem_zipIdx_interleaved {n : Nat} {item : ExecutionOrder × Nat}
    (h : item ∈ (interleaved n).zipIdx) : item.2 < n := by
  have bound := List.snd_lt_of_mem_zipIdx h
  rwa [interleaved, List.length_map, List.length_range] at bound

omit [IsStrictOrderedRing K] in
theorem exists_mem_zipIdx_interleaved {n i : Nat} (h : i < n) :
    ∃ item ∈ (interleaved n).zipIdx, item.2 = i := by
  have bound : i < (interleaved n).length := by
    rwa [interleaved, List.length_map, List.length_range]
  exact ⟨((interleaved n)[i], i), List.mk_mem_zipIdx_iff_getElem?.mpr
    (List.getElem?_eq_getElem bound), rfl⟩

/-- The loop gets through exactly where the runs match one digest. -/
theorem runTrials_ok_iff (measured : Measured m) (n : Nat) :
    (∃ s, runTrials m (interleaved n) = .ok s) ↔ ∃ digest, ∀ i < n, Exact digest (m.run i) := by
  constructor
  · rintro ⟨s, hs⟩
    obtain ⟨digest, exact, -⟩ := exact_of_run measured hs
    refine ⟨digest, fun i hi => ?_⟩
    obtain ⟨item, hitem, rfl⟩ := exists_mem_zipIdx_interleaved hi
    exact exact item hitem
  · rintro ⟨digest, exact⟩
    obtain ⟨s, hs, -⟩ := recorded_run measured (recorded_start m digest)
      fun item hitem => exact item.2 (mem_zipIdx_interleaved hitem)
    exact ⟨s, hs⟩

theorem recorded_of_runTrials (measured : Measured m) {n : Nat} {s : LoopState K}
    (h : runTrials m (interleaved n) = .ok s) :
    ∃ digest, (∀ i < n, Exact digest (m.run i)) ∧ Recorded m digest (interleaved n).zipIdx s := by
  obtain ⟨digest, exact⟩ := (runTrials_ok_iff measured n).mp ⟨s, h⟩
  have every : ∀ item ∈ (interleaved n).zipIdx, Exact digest (m.run item.2) := fun item hitem =>
    exact item.2 (mem_zipIdx_interleaved hitem)
  obtain ⟨s', hs', recorded⟩ := recorded_run measured (recorded_start m digest) every
  rw [runTrials, hs'] at h
  cases h
  exact ⟨digest, exact, by rwa [List.nil_append] at recorded⟩

omit [IsStrictOrderedRing K] in
/-- A loop that ends early leaves an incorrect result. -/
theorem correct_of_stop (setup : Setup) (databaseBytes : Nat) (stop : Stop K) :
    (settle request databaseBytes (afterTrials request m setup (.error stop))).correct = false := by
  cases stop with
  | raised fault => rfl
  | mismatch reference candidate trials => rfl

omit [IsStrictOrderedRing K] in
theorem balanced_of_recorded {n : Nat} {digest : Text} {s : LoopState K} (even : n % 2 = 0)
    (recorded : Recorded m digest (interleaved n).zipIdx s) : Balanced m n s.trials := by
  have orders : s.trials.map SandboxTrialV2.order = interleaved n := by
    have mapped : List.Forall₂ (· = ·) (s.trials.map SandboxTrialV2.order)
        ((interleaved n).zipIdx.map Prod.fst) := by
      rw [List.forall₂_map_left_iff, List.forall₂_map_right_iff]
      exact recorded.trials.imp fun t item h => h.1
    rwa [List.forall₂_eq_eq_eq, List.zipIdx_map_fst] at mapped
  have halves : 2 * (n / 2) = n := by omega
  obtain ⟨first, second⟩ := count_interleaved (n / 2)
  rw [halves] at first second
  refine ⟨?_, ?_, ?_⟩
  · rw [← List.length_map SandboxTrialV2.order, orders, interleaved, List.length_map,
      List.length_range]
  · rw [orders, first, second]
  · intro i t ht
    obtain ⟨bound, rfl⟩ := List.getElem?_eq_some_iff.mp ht
    have pair := recorded.trials.get bound (recorded.trials.length_eq ▸ bound)
    rw [List.get_eq_getElem, List.get_eq_getElem, List.getElem_zipIdx] at pair
    rw [pair.2, List.any_eq_true, Nat.zero_add]

/-- For every even number of trials, at least six, and whatever the runs come
to: the verdict is exact match, and a correct one shows balanced trials. -/
theorem correct_iff_matches (reaches : Reaches sandbox measure position database request m)
    (measured : Measured m) :
    ∃ databaseBytes setup,
      sandbox.run measure position database request =
        trialVerdict request databaseBytes m setup request.trialCount ∧
      ∀ n, 6 ≤ n → n % 2 = 0 →
        ((trialVerdict request databaseBytes m setup n).correct = true ↔ Matches m n) ∧
        ((trialVerdict request databaseBytes m setup n).correct = true →
          Balanced m n (trialVerdict request databaseBytes m setup n).trials) := by
  obtain ⟨databaseBytes, setup, hrun⟩ := run_of_reaches reaches
  refine ⟨databaseBytes, setup, hrun, fun n enough even => ?_⟩
  have verdict_eq : trialVerdict request databaseBytes m setup n =
      settle request databaseBytes (afterTrials request m setup (runTrials m (interleaved n))) := by
    rw [trialVerdict, balancedInterleaveOrders_eq enough even]
    rfl
  rw [verdict_eq]
  cases hloop : runTrials m (interleaved n) with
  | error stop =>
    rw [correct_of_stop]
    refine ⟨⟨fun h => absurd h Bool.false_ne_true, fun matched => ?_⟩,
      fun h => absurd h Bool.false_ne_true⟩
    obtain ⟨s, hs⟩ := (runTrials_ok_iff measured n).mpr matched.digest
    rw [hloop] at hs
    cases hs
  | ok s =>
    obtain ⟨digest, exact, recorded⟩ := recorded_of_runTrials measured hloop
    have balanced := balanced_of_recorded even recorded
    have found : s.candidate.isSome = true ↔ Matches m n := by
      rw [recorded.found]
      constructor
      · rintro ⟨item, hitem, r, hr, inTime⟩
        exact ⟨⟨digest, exact⟩, item.2, mem_zipIdx_interleaved hitem, r, hr, inTime⟩
      · rintro ⟨-, i, hi, r, hr, inTime⟩
        obtain ⟨item, hitem, rfl⟩ := exists_mem_zipIdx_interleaved hi
        exact ⟨item, hitem, r, hr, inTime⟩
    obtain ⟨b, hb⟩ : ∃ b, s.reference = some b := by
      rw [← Option.isSome_iff_exists, recorded.present]
      obtain ⟨item, hitem, -⟩ := exists_mem_zipIdx_interleaved (n := n) (i := 0) (by omega)
      rw [List.isEmpty_eq_false_iff.mpr (List.ne_nil_of_mem hitem)]
      rfl
    rw [← found]
    unfold afterTrials conclude
    dsimp only
    rw [hb]
    cases hc : s.candidate with
    | none => exact ⟨⟨fun h => h, fun h => h⟩, fun h => absurd h Bool.false_ne_true⟩
    | some c =>
      dsimp only
      rw [if_pos ((recorded.reference b hb).trans (recorded.candidate c hc).symm)]
      exact ⟨⟨fun _ => rfl, fun _ => rfl⟩, fun _ => balanced⟩

end Verdict

/-! A candidate that answers like the reference, but for one timeout. -/
namespace Sample

open BenchmarkV2 CohortEvaluation CohortEvaluation.Sample EvaluateOnce.Sample

def answer : CanonicalResult := ⟨"d".toList, 1, 1, 1, []⟩

theorem named : 1 ≤ "w".toList.length ∧ "w".toList.length ≤ 128 := by decide

noncomputable def steady : Measurements ℝ where
  setupMs := 0
  candidateFile := ⟨some 4096, true, [], none⟩
  planRows := .ok []
  workerId := "w".toList
  opens := fun _ => .ok ()
  run := fun i arm track =>
    match i, arm, track with
    | 1, .candidate, .cold => .raised (.database "interrupted".toList) 750
    | _, _, _ => .completed answer 1
  setupNonnegative := no_setup
  workerIdBounds := named

theorem steady_measured : Measured steady := by
  refine ⟨fun _ => rfl, fun i arm track => ?_⟩
  unfold steady
  dsimp only
  split
  · exact .interrupted _ _ (by decide)
  · exact .completed _ _

theorem steady_reaches : ∃ request, Reaches EvaluateOnce.Sample.sandbox (fun _ _ => .ok steady) 0
    first.database request steady := by
  have holdout : (first, 0) ∈ holdouts generator task nullableCoupon :=
    List.mem_cons_self
  obtain ⟨request, hrequest⟩ := exists_request terse rfl rfl holdout
  exact ⟨request, (passes_iff holdout (requestOf_sandboxRequest hrequest)).mpr terse_small, rfl,
    ⟨4096, rfl⟩, [], rfl⟩

end Sample

/-- The verdict on a candidate that once runs into a timeout. -/
theorem correct_iff_matches_steady : ∃ request databaseBytes setup,
    EvaluateOnce.Sample.sandbox.run (fun _ _ => .ok Sample.steady) 0
        CohortEvaluation.Sample.first.database request =
      trialVerdict request databaseBytes Sample.steady setup request.trialCount ∧
    ∀ n, 6 ≤ n → n % 2 = 0 →
      ((trialVerdict request databaseBytes Sample.steady setup n).correct = true ↔
        Matches Sample.steady n) ∧
      ((trialVerdict request databaseBytes Sample.steady setup n).correct = true →
        Balanced Sample.steady n
          (trialVerdict request databaseBytes Sample.steady setup n).trials) := by
  obtain ⟨request, reaches⟩ := Sample.steady_reaches
  exact ⟨request, correct_iff_matches reaches Sample.steady_measured⟩

end ExactMatch
