import PlanRace.TaskModels
import PlanRace.Library.MerkleTree
import PlanRace.Library.Fallible

/-!
# Task creation and the audit of a reveal

A commitment hashes the public contents of a task, the two private seeds and
the Merkle root of the hidden fixtures. The audit recomputes both digests.
Binding is stated for the inputs that two audits hash, never for all inputs.
-/

namespace TaskgenV2

open JsonText ByteStrings Sha256 CanonicalJson WireText IndexAst TaskModels MerkleTree Fallible

def commitmentDomainV2 : Domain :=
  ⟨"planrace/2:task-commitment".toList, by decide +kernel, by decide +kernel, by decide +kernel⟩

def hiddenFixtureLeafDomain : Domain :=
  ⟨"planrace/2:hidden-fixture-leaf".toList, by decide +kernel, by decide +kernel,
    by decide +kernel⟩

def hiddenFixtureNodeDomain : Domain :=
  ⟨"planrace/2:hidden-fixture-node".toList, by decide +kernel, by decide +kernel,
    by decide +kernel⟩

inductive TaskError where
  | wrongEntropySize (size : Nat)
  | repeatedSeed
  | tooFewHoldouts
  | duplicateFixtureIds
  | tooFewFixtures
  /-- The reveal or the public task fails a field bound. -/
  | invalidModel
deriving DecidableEq

def TaskError.text : TaskError → Text
  | wrongEntropySize size =>
    "entropy source must return exactly ".toList ++ intText size ++ " bytes".toList
  | repeatedSeed => "entropy source repeated the task seed as the salt".toList
  | tooFewHoldouts => "PlanRace v2 requires at least two private holdout fixtures".toList
  | duplicateFixtureIds => "hidden fixture IDs must be unique".toList
  | tooFewFixtures => "at least two hidden fixtures are required".toList
  | invalidModel => "validation error".toList

/-- Validator-only task state. -/
structure PrivateTaskV2 where
  publicTask : PublicTaskV2
  reveal : TaskRevealV2

section MerkleRoot

def leafPayload (leaf : HiddenFixtureDescriptor × Nat) : Json :=
  .obj [("index".toList, modelDump leaf.2), ("fixture".toList, modelDump leaf.1)]

def nodePayload (left right : Sha256Digest) : Json :=
  .obj [("left".toList, modelDump left), ("right".toList, modelDump right)]

def leafDigest (leaf : HiddenFixtureDescriptor × Nat) : Sha256Digest :=
  payloadDigest hiddenFixtureLeafDomain (leafPayload leaf)

def nodeDigest (left right : Sha256Digest) : Sha256Digest :=
  payloadDigest hiddenFixtureNodeDomain (nodePayload left right)

def hiddenFixtureMerkleRoot (fixtures : List HiddenFixtureDescriptor) :
    Except TaskError Sha256Digest :=
  if fixtures.length < 2 then .error .tooFewFixtures
  else
    match root nodeDigest (fixtures.zipIdx.map leafDigest) with
    | some digest => .ok digest
    | none => .error .tooFewFixtures

theorem hiddenFixtureMerkleRoot_pair (first second : HiddenFixtureDescriptor) :
    hiddenFixtureMerkleRoot [first, second] =
      .ok (nodeDigest (leafDigest (first, 0)) (leafDigest (second, 1))) := by
  rw [hiddenFixtureMerkleRoot, if_neg (by simp)]
  simp [root, climb, levelUp]

abbrev FixtureTree := MerkleTree.Tree (HiddenFixtureDescriptor × Nat)

def treeDigest : FixtureTree → Sha256Digest := MerkleTree.Tree.eval leafDigest nodeDigest

/-- Everything that is hashed on the way to the root of a tree. -/
def treeInputs : FixtureTree → List Bytes
  | .leaf leaf => [hashInput hiddenFixtureLeafDomain (leafPayload leaf)]
  | .node left right =>
    hashInput hiddenFixtureNodeDomain (nodePayload (treeDigest left) (treeDigest right)) ::
      (treeInputs left ++ treeInputs right)

/-- The inputs hashed by `hidden_fixture_merkle_root`. -/
def merkleInputs (fixtures : List HiddenFixtureDescriptor) : List Bytes :=
  match treeOf fixtures.zipIdx with
  | some tree => treeInputs tree
  | none => []

theorem leafPayload_inj {x y : HiddenFixtureDescriptor × Nat}
    (h : (leafPayload x).Same (leafPayload y)) : x = y := by
  have hvalues := values_of_same h rfl (of_decide_eq_true rfl)
  simp only [List.map_cons, List.map_nil, List.cons.injEq, normalize_modelDump_eq_iff,
    and_true] at hvalues
  exact Prod.ext hvalues.2 hvalues.1

theorem nodePayload_inj {a b c d : Sha256Digest}
    (h : (nodePayload a b).Same (nodePayload c d)) : a = c ∧ b = d := by
  have hvalues := values_of_same h rfl (of_decide_eq_true rfl)
  simpa using hvalues

theorem hiddenFixtureMerkleRoot_eq {fixtures : List HiddenFixtureDescriptor}
    (enough : 2 ≤ fixtures.length) :
    ∃ tree, treeOf fixtures.zipIdx = some tree ∧ merkleInputs fixtures = treeInputs tree ∧
      hiddenFixtureMerkleRoot fixtures = .ok (treeDigest tree) := by
  have nonempty : fixtures.zipIdx ≠ [] := by
    intro he
    have hlen := congrArg List.length he
    simp only [List.length_zipIdx, List.length_nil] at hlen
    omega
  obtain ⟨tree, htree⟩ := treeOf_isSome nonempty
  refine ⟨tree, htree, by rw [merkleInputs, htree], ?_⟩
  rw [hiddenFixtureMerkleRoot, if_neg (by omega), root_eq_eval, htree]
  rfl

variable {inputs : List Bytes}

/-- Digests that bind their inputs bind whole symbolic trees. -/
theorem treeDigest_binds (free : CollisionFreeOn inputs) {s t : FixtureTree}
    (hs : ∀ x ∈ treeInputs s, x ∈ inputs) (ht : ∀ x ∈ treeInputs t, x ∈ inputs)
    (he : treeDigest s = treeDigest t) : s = t := by
  have digests := congrArg Subtype.val he
  induction s generalizing t with
  | leaf x =>
    cases t with
    | leaf y =>
      obtain ⟨-, hsame⟩ := binding_of_collisionFreeOn free (hs _ List.mem_cons_self)
        (ht _ List.mem_cons_self) digests
      rw [leafPayload_inj hsame]
    | node a b =>
      obtain ⟨hdomain, -⟩ := binding_of_collisionFreeOn free (hs _ List.mem_cons_self)
        (ht _ List.mem_cons_self) digests
      exact absurd hdomain (by decide +kernel)
  | node a b iha ihb =>
    cases t with
    | leaf y =>
      obtain ⟨hdomain, -⟩ := binding_of_collisionFreeOn free (hs _ List.mem_cons_self)
        (ht _ List.mem_cons_self) digests
      exact absurd hdomain (by decide +kernel)
    | node c d =>
      obtain ⟨-, hsame⟩ := binding_of_collisionFreeOn free (hs _ List.mem_cons_self)
        (ht _ List.mem_cons_self) digests
      obtain ⟨hac, hbd⟩ := nodePayload_inj hsame
      have hleft := iha
        (fun x hx => hs x (List.mem_cons_of_mem _ (List.mem_append_left _ hx)))
        (fun x hx => ht x (List.mem_cons_of_mem _ (List.mem_append_left _ hx))) hac
        (congrArg Subtype.val hac)
      have hright := ihb
        (fun x hx => hs x (List.mem_cons_of_mem _ (List.mem_append_right _ hx)))
        (fun x hx => ht x (List.mem_cons_of_mem _ (List.mem_append_right _ hx))) hbd
        (congrArg Subtype.val hbd)
      rw [hleft, hright]

theorem nodup_zipIdx {α : Type} (items : List α) : items.zipIdx.Nodup :=
  List.Nodup.of_map Prod.snd (by simpa [List.zipIdx_map_snd] using List.nodup_range')

/-- The root binds the ordered list of fixtures and its length. -/
theorem hiddenFixtureMerkleRoot_binds (free : CollisionFreeOn inputs)
    {xs ys : List HiddenFixtureDescriptor} (hx : 2 ≤ xs.length) (hy : 2 ≤ ys.length)
    (hxs : ∀ x ∈ merkleInputs xs, x ∈ inputs) (hys : ∀ y ∈ merkleInputs ys, y ∈ inputs)
    (he : hiddenFixtureMerkleRoot xs = hiddenFixtureMerkleRoot ys) : xs = ys := by
  obtain ⟨s, hs, sinputs, sroot⟩ := hiddenFixtureMerkleRoot_eq hx
  obtain ⟨t, ht, tinputs, troot⟩ := hiddenFixtureMerkleRoot_eq hy
  rw [sinputs] at hxs
  rw [tinputs] at hys
  rw [sroot, troot] at he
  have htree := treeDigest_binds free hxs hys (Except.ok.inj he)
  have ne : ∀ {zs : List HiddenFixtureDescriptor}, 2 ≤ zs.length → zs.zipIdx ≠ [] := by
    intro zs hz h
    have hlen := congrArg List.length h
    simp only [List.length_zipIdx, List.length_nil] at hlen
    omega
  have hzip := treeOf_injective (nodup_zipIdx xs) (nodup_zipIdx ys) (ne hx) (ne hy)
    (by rw [hs, ht, htree])
  have hfst := congrArg (List.map Prod.fst) hzip
  simpa using hfst

end MerkleRoot

section Commitment

/-- The public contents of a task: the keyword arguments that task creation
and the audit hand on to the commitment. -/
structure TaskTerms where
  validatorHotkey : Hotkey
  engineImageDigest : Sha256Digest
  generatorSourceDigest : Sha256Digest
  benchmarkPolicyDigest : Sha256Digest
  benchmarkFamilyId : BenchmarkFamilyId
  schemaSql : SqlTextV2
  referenceSql : SqlTextV2
  publicTrainingFixture : PublicTrainingFixture
  parameterRanges : List ParameterRange
  publishedStatistics : PublishedStatistics
  artifactBudget : ArtifactBudget
  artifactGrammar : ArtifactGrammar
  deadlineUnixMs : Int

/-- Every field cryptographically bound by a v2 task commitment. -/
structure TaskCommitmentPayloadV2 where
  taskId : OpaqueId
  terms : TaskTerms
  secretSeedHex : Hex32Bytes
  saltHex : Hex32Bytes
  hiddenFixtureMerkleRoot : Sha256Digest

instance : WireModel TaskCommitmentPayloadV2 where
  modelDump p := .obj [("protocol_version".toList, .str protocolVersionV2),
    ("task_id".toList, modelDump p.taskId),
    ("validator_hotkey".toList, modelDump p.terms.validatorHotkey),
    ("engine_image_digest".toList, modelDump p.terms.engineImageDigest),
    ("generator_source_digest".toList, modelDump p.terms.generatorSourceDigest),
    ("benchmark_policy_digest".toList, modelDump p.terms.benchmarkPolicyDigest),
    ("benchmark_family_id".toList, modelDump p.terms.benchmarkFamilyId),
    ("schema_sql".toList, modelDump p.terms.schemaSql),
    ("reference_sql".toList, modelDump p.terms.referenceSql),
    ("public_training_fixture".toList, modelDump p.terms.publicTrainingFixture),
    ("parameter_ranges".toList, modelDump p.terms.parameterRanges),
    ("published_statistics".toList, modelDump p.terms.publishedStatistics),
    ("artifact_budget".toList, modelDump p.terms.artifactBudget),
    ("artifact_grammar".toList, modelDump p.terms.artifactGrammar),
    ("secret_seed_hex".toList, modelDump p.secretSeedHex),
    ("salt_hex".toList, modelDump p.saltHex),
    ("hidden_fixture_merkle_root".toList, modelDump p.hiddenFixtureMerkleRoot),
    ("deadline_unix_ms".toList, modelDump p.terms.deadlineUnixMs)]
  modelDump_inj := by
    intro x y h
    have hvalues := values_of_same h rfl (of_decide_eq_true rfl)
    obtain ⟨_, ⟨_, _, _, _, _, _, _, _, _, _, _, _, _⟩, _, _, _⟩ := x
    obtain ⟨_, ⟨_, _, _, _, _, _, _, _, _, _, _, _, _⟩, _, _, _⟩ := y
    simpa [and_assoc, and_comm, and_left_comm] using hvalues

/-- `_commitment_payload`. -/
def commitmentPayload (taskId : OpaqueId) (terms : TaskTerms) (reveal : TaskRevealV2) :
    TaskCommitmentPayloadV2 where
  taskId := taskId
  terms := terms
  secretSeedHex := reveal.secretSeedHex
  saltHex := reveal.saltHex
  hiddenFixtureMerkleRoot := reveal.hiddenFixtureMerkleRoot

def commitmentDigest (taskId : OpaqueId) (terms : TaskTerms) (reveal : TaskRevealV2) :
    Sha256Digest :=
  payloadDigest commitmentDomainV2 (modelDump (commitmentPayload taskId terms reveal))

/-- The terms the audit reads off a public task. -/
def publicTerms (task : PublicTaskV2) : TaskTerms where
  validatorHotkey := task.validatorHotkey
  engineImageDigest := task.engineImageDigest
  generatorSourceDigest := task.generatorSourceDigest
  benchmarkPolicyDigest := task.benchmarkPolicyDigest
  benchmarkFamilyId := task.benchmarkFamilyId
  schemaSql := task.schemaSql
  referenceSql := task.referenceSql
  publicTrainingFixture := task.publicTrainingFixture
  parameterRanges := task.parameterRanges
  publishedStatistics := task.publishedStatistics
  artifactBudget := task.artifactBudget
  artifactGrammar := task.artifactGrammar
  deadlineUnixMs := task.deadlineUnixMs

/-- A public task is its terms with three more fields. -/
theorem publicTask_ext {x y : PublicTaskV2} (hid : x.taskId = y.taskId)
    (hterms : publicTerms x = publicTerms y) (hcount : x.hiddenHoldoutCount = y.hiddenHoldoutCount)
    (hcommitment : x.commitment = y.commitment) : x = y := by
  cases x
  cases y
  simp_all [publicTerms]

abbrev HiddenFixtureFactory := Bytes → List HiddenFixtureDescriptor

def auditTaskReveal (publicTask : PublicTaskV2) (reveal : TaskRevealV2)
    (regenerate : Option HiddenFixtureFactory) : Except TaskError Bool :=
  if publicTask.taskId ≠ reveal.taskId then .ok false
  else if publicTask.hiddenHoldoutCount ≠ reveal.hiddenFixtures.length then .ok false
  else
    match hiddenFixtureMerkleRoot reveal.hiddenFixtures with
    | .error e => .error e
    | .ok calculatedRoot =>
      if calculatedRoot ≠ reveal.hiddenFixtureMerkleRoot then .ok false
      else if regenerate.any (fun factory =>
          decide (factory (fromHex reveal.secretSeedHex.val) ≠ reveal.hiddenFixtures)) then
        .ok false
      else
        .ok (decide (publicTask.commitment =
          commitmentDigest publicTask.taskId (publicTerms publicTask) reveal))

/-- The input of the commitment digest that an audit recomputes. -/
def commitmentInput (publicTask : PublicTaskV2) (reveal : TaskRevealV2) : Bytes :=
  hashInput commitmentDomainV2
    (modelDump (commitmentPayload publicTask.taskId (publicTerms publicTask) reveal))

/-- The inputs an audit hashes. -/
def auditInputs (publicTask : PublicTaskV2) (reveal : TaskRevealV2) : List Bytes :=
  commitmentInput publicTask reveal :: merkleInputs reveal.hiddenFixtures

/-- What an accepting audit has checked. -/
theorem auditTaskReveal_ok_iff {publicTask : PublicTaskV2} {reveal : TaskRevealV2}
    {regenerate : Option HiddenFixtureFactory} :
    auditTaskReveal publicTask reveal regenerate = .ok true ↔
      publicTask.taskId = reveal.taskId ∧
      publicTask.hiddenHoldoutCount = reveal.hiddenFixtures.length ∧
      hiddenFixtureMerkleRoot reveal.hiddenFixtures = .ok reveal.hiddenFixtureMerkleRoot ∧
      (∀ factory ∈ regenerate,
        factory (fromHex reveal.secretSeedHex.val) = reveal.hiddenFixtures) ∧
      publicTask.commitment =
        commitmentDigest publicTask.taskId (publicTerms publicTask) reveal := by
  unfold auditTaskReveal
  by_cases hid : publicTask.taskId = reveal.taskId
  · by_cases hcount : publicTask.hiddenHoldoutCount = reveal.hiddenFixtures.length
    · rw [if_neg (not_not.mpr hid), if_neg (not_not.mpr hcount)]
      cases hroot : hiddenFixtureMerkleRoot reveal.hiddenFixtures with
      | error e => simp
      | ok calculatedRoot =>
        by_cases hsame : calculatedRoot = reveal.hiddenFixtureMerkleRoot
        · cases regenerate with
          | none => simp [hid, hcount, hsame]
          | some factory =>
            by_cases hfactory : factory (fromHex reveal.secretSeedHex.val) = reveal.hiddenFixtures
            · simp [hid, hcount, hsame, hfactory]
            · simp [hsame, hfactory]
        · simp [hsame]
    · simp [hid, hcount]
  · simp [hid]

/-- Two accepted audits of one commitment audited one task and one reveal. -/
theorem auditTaskReveal_binds {public₁ public₂ : PublicTaskV2} {reveal₁ reveal₂ : TaskRevealV2}
    {regenerate₁ regenerate₂ : Option HiddenFixtureFactory}
    (free : CollisionFreeOn (auditInputs public₁ reveal₁ ++ auditInputs public₂ reveal₂))
    (one : public₁.commitment = public₂.commitment)
    (accepted₁ : auditTaskReveal public₁ reveal₁ regenerate₁ = .ok true)
    (accepted₂ : auditTaskReveal public₂ reveal₂ regenerate₂ = .ok true) :
    public₁ = public₂ ∧ reveal₁ = reveal₂ := by
  obtain ⟨id₁, count₁, root₁, -, commitment₁⟩ := auditTaskReveal_ok_iff.mp accepted₁
  obtain ⟨id₂, count₂, root₂, -, commitment₂⟩ := auditTaskReveal_ok_iff.mp accepted₂
  have digests := congrArg Subtype.val (commitment₁.symm.trans (one.trans commitment₂))
  obtain ⟨-, hsame⟩ := binding_of_collisionFreeOn free
    (List.mem_append_left _ List.mem_cons_self) (List.mem_append_right _ List.mem_cons_self) digests
  have payload := modelDump_inj _ _ hsame
  have taskId : public₁.taskId = public₂.taskId :=
    congrArg TaskCommitmentPayloadV2.taskId payload
  have terms : publicTerms public₁ = publicTerms public₂ :=
    congrArg TaskCommitmentPayloadV2.terms payload
  have seed : reveal₁.secretSeedHex = reveal₂.secretSeedHex :=
    congrArg TaskCommitmentPayloadV2.secretSeedHex payload
  have salt : reveal₁.saltHex = reveal₂.saltHex :=
    congrArg TaskCommitmentPayloadV2.saltHex payload
  have merkle : reveal₁.hiddenFixtureMerkleRoot = reveal₂.hiddenFixtureMerkleRoot :=
    congrArg TaskCommitmentPayloadV2.hiddenFixtureMerkleRoot payload
  -- The fixtures are bound through the root only.
  have fixtures := hiddenFixtureMerkleRoot_binds free reveal₁.fixtureBounds.1
    reveal₂.fixtureBounds.1
    (fun x hx => List.mem_append_left _ (List.mem_cons_of_mem _ hx))
    (fun x hx => List.mem_append_right _ (List.mem_cons_of_mem _ hx))
    (root₁.trans ((congrArg Except.ok merkle).trans root₂.symm))
  refine ⟨publicTask_ext taskId terms (by rw [count₁, count₂, fixtures]) one, ?_⟩
  have revealId := id₁.symm.trans (taskId.trans id₂)
  cases reveal₁
  cases reveal₂
  simp_all

end Commitment

section Creation

variable {σ : Type}

/-- `token_bytes` of an entropy source with a state of its own. -/
abbrev EntropySource (σ : Type) := Nat → σ → Bytes × σ

/-- `_draw_exact`. -/
def drawExact (source : EntropySource σ) (size : Nat) (s : σ) :
    Except TaskError ({value : Bytes // value.length = size} × σ) :=
  if h : (source size s).1.length = size then .ok (⟨(source size s).1, h⟩, (source size s).2)
  else .error (.wrongEntropySize size)

/-- The keyword arguments of `create_task_v2` but the entropy source. -/
structure TaskArguments where
  validatorHotkey : Hotkey
  engineImageDigest : Sha256Digest
  generatorSourceDigest : Sha256Digest
  benchmarkPolicyDigest : Sha256Digest
  benchmarkFamilyId : BenchmarkFamilyId
  schemaSql : SqlTextV2
  referenceSql : SqlTextV2
  publicTrainingFixture : PublicTrainingFixture
  parameterRanges : List ParameterRange
  publishedStatistics : PublishedStatistics
  deadlineUnixMs : Int
  hiddenFixtureFactory : HiddenFixtureFactory
  artifactBudget : Option ArtifactBudget := none
  artifactGrammar : Option ArtifactGrammar := none

/-- The terms that creation hands on, with its defaults. -/
def TaskArguments.terms (a : TaskArguments) : TaskTerms where
  validatorHotkey := a.validatorHotkey
  engineImageDigest := a.engineImageDigest
  generatorSourceDigest := a.generatorSourceDigest
  benchmarkPolicyDigest := a.benchmarkPolicyDigest
  benchmarkFamilyId := a.benchmarkFamilyId
  schemaSql := a.schemaSql
  referenceSql := a.referenceSql
  publicTrainingFixture := a.publicTrainingFixture
  parameterRanges := a.parameterRanges
  publishedStatistics := a.publishedStatistics
  artifactBudget := a.artifactBudget.getD .default
  artifactGrammar := a.artifactGrammar.getD {}
  deadlineUnixMs := a.deadlineUnixMs

/-- `value.hex()` as a value of the matching hexadecimal type. -/
def hexConstrained {size : Nat} (value : {value : Bytes // value.length = size}) :
    Constrained (hexOfLength (2 * size)) :=
  ⟨hexText value.val, by simp [hexOfLength, hexText_all, value.property]⟩

/-- The public task, whose own bounds are checked last. -/
def publicTaskOf (a : TaskArguments) (taskId : OpaqueId) (reveal : TaskRevealV2)
    (valid : 1 ≤ a.parameterRanges.length ∧ 0 < a.deadlineUnixMs) : PublicTaskV2 where
  taskId := taskId
  validatorHotkey := a.terms.validatorHotkey
  engineImageDigest := a.terms.engineImageDigest
  generatorSourceDigest := a.terms.generatorSourceDigest
  benchmarkPolicyDigest := a.terms.benchmarkPolicyDigest
  benchmarkFamilyId := a.terms.benchmarkFamilyId
  schemaSql := a.terms.schemaSql
  referenceSql := a.terms.referenceSql
  publicTrainingFixture := a.terms.publicTrainingFixture
  parameterRanges := a.terms.parameterRanges
  publishedStatistics := a.terms.publishedStatistics
  artifactBudget := a.terms.artifactBudget
  artifactGrammar := a.terms.artifactGrammar
  hiddenHoldoutCount := reveal.hiddenFixtures.length
  commitment := commitmentDigest taskId a.terms reveal
  deadlineUnixMs := a.deadlineUnixMs.toNat
  rangeBound := valid.1
  holdoutBounds := reveal.fixtureBounds
  deadlinePositive := by have := valid.2; omega

/-- `create_task_v2` after its three draws. -/
def assembleTask (a : TaskArguments) (taskId : {value : Bytes // value.length = 16})
    (secretSeed salt : {value : Bytes // value.length = 32}) : Except TaskError PrivateTaskV2 :=
  let hiddenFixtures := a.hiddenFixtureFactory secretSeed.val
  if salt = secretSeed then .error .repeatedSeed
  else if few : hiddenFixtures.length < 2 then .error .tooFewHoldouts
  else if ¬ (hiddenFixtures.map HiddenFixtureDescriptor.fixtureId).Nodup then
    .error .duplicateFixtureIds
  else
    match hiddenFixtureMerkleRoot hiddenFixtures with
    | .error e => .error e
    | .ok hiddenRoot =>
      if many : 64 < hiddenFixtures.length then .error .invalidModel
      else
        let reveal : TaskRevealV2 :=
          { taskId := hexConstrained taskId
            secretSeedHex := hexConstrained secretSeed
            saltHex := hexConstrained salt
            hiddenFixtures := hiddenFixtures
            hiddenFixtureMerkleRoot := hiddenRoot
            fixtureBounds := ⟨Nat.not_lt.mp few, Nat.not_lt.mp many⟩ }
        if valid : 1 ≤ a.parameterRanges.length ∧ 0 < a.deadlineUnixMs then
          .ok ⟨publicTaskOf a (hexConstrained taskId) reveal valid, reveal⟩
        else .error .invalidModel

def createTaskV2 (a : TaskArguments) (entropy : EntropySource σ) (s : σ) :
    Except TaskError PrivateTaskV2 := do
  let (taskId, s) ← drawExact entropy 16 s
  let (secretSeed, s) ← drawExact entropy 32 s
  let (salt, _) ← drawExact entropy 32 s
  assembleTask a taskId secretSeed salt

theorem publicTerms_publicTaskOf (a : TaskArguments) (taskId : OpaqueId) (reveal : TaskRevealV2)
    (valid : 1 ≤ a.parameterRanges.length ∧ 0 < a.deadlineUnixMs) :
    publicTerms (publicTaskOf a taskId reveal valid) = a.terms := by
  have hdeadline : ((a.deadlineUnixMs.toNat : Nat) : Int) = a.deadlineUnixMs :=
    Int.toNat_of_nonneg (Int.le_of_lt valid.2)
  simp [publicTerms, publicTaskOf, TaskArguments.terms, hdeadline]

/-- What an assembled task is made of. -/
theorem assembleTask_ok {a : TaskArguments} {taskId : {value : Bytes // value.length = 16}}
    {secretSeed salt : {value : Bytes // value.length = 32}} {task : PrivateTaskV2}
    (h : assembleTask a taskId secretSeed salt = .ok task) :
    (∃ valid, task.publicTask = publicTaskOf a task.reveal.taskId task.reveal valid) ∧
      hiddenFixtureMerkleRoot task.reveal.hiddenFixtures =
        .ok task.reveal.hiddenFixtureMerkleRoot ∧
      a.hiddenFixtureFactory (fromHex task.reveal.secretSeedHex.val) =
        task.reveal.hiddenFixtures := by
  unfold assembleTask at h
  dsimp only at h
  cases hroot : hiddenFixtureMerkleRoot (a.hiddenFixtureFactory secretSeed.val) with
  | error e =>
    rw [hroot] at h
    split_ifs at h
  | ok hiddenRoot =>
    rw [hroot] at h
    split_ifs at h with _ few _ many valid
    injection h with h
    subst h
    exact ⟨⟨valid, rfl⟩, hroot, by simp [hexConstrained, fromHex_hexText]⟩

/-- Creation only makes tasks that pass their own audit. -/
theorem auditTaskReveal_createTaskV2 {a : TaskArguments} {entropy : EntropySource σ} {s : σ}
    {task : PrivateTaskV2} (created : createTaskV2 a entropy s = .ok task)
    (regenerate : Option HiddenFixtureFactory)
    (factory : ∀ f ∈ regenerate, f = a.hiddenFixtureFactory) :
    auditTaskReveal task.publicTask task.reveal regenerate = .ok true := by
  unfold createTaskV2 at created
  obtain ⟨⟨taskId, _⟩, _, created⟩ := bind_ok created
  obtain ⟨⟨secretSeed, _⟩, _, created⟩ := bind_ok created
  obtain ⟨⟨salt, _⟩, _, created⟩ := bind_ok created
  obtain ⟨⟨valid, hpublic⟩, hroot, hfactory⟩ := assembleTask_ok created
  refine auditTaskReveal_ok_iff.mpr ⟨?_, ?_, hroot, ?_, ?_⟩
  · rw [hpublic]
    rfl
  · rw [hpublic]
    rfl
  · intro f hf
    rw [factory f hf, hfactory]
  · rw [hpublic, publicTerms_publicTaskOf]
    rfl

/-- One commitment opens in one way, unless its two openings exhibit a collision
of SHA-256, and every created task opens its own commitment. -/
theorem commitment_binding :
    (∀ public₁ public₂ reveal₁ reveal₂ regenerate₁ regenerate₂,
      public₁.commitment = public₂.commitment →
      auditTaskReveal public₁ reveal₁ regenerate₁ = .ok true →
      auditTaskReveal public₂ reveal₂ regenerate₂ = .ok true →
      Collision (auditInputs public₁ reveal₁ ++ auditInputs public₂ reveal₂) ∨
        public₁ = public₂ ∧ reveal₁ = reveal₂) ∧
    ∀ (σ : Type) (a : TaskArguments) (entropy : EntropySource σ) (s : σ) (task : PrivateTaskV2),
      createTaskV2 a entropy s = .ok task →
      auditTaskReveal task.publicTask task.reveal none = .ok true ∧
        auditTaskReveal task.publicTask task.reveal (some a.hiddenFixtureFactory) = .ok true := by
  constructor
  · intro public₁ public₂ reveal₁ reveal₂ _ _ one accepted₁ accepted₂
    rcases collision_or_collisionFreeOn (auditInputs public₁ reveal₁ ++ auditInputs public₂ reveal₂)
      with collision | free
    · exact .inl collision
    · exact .inr (auditTaskReveal_binds free one accepted₁ accepted₂)
  · intro σ a entropy s task created
    exact ⟨auditTaskReveal_createTaskV2 created none (by simp),
      auditTaskReveal_createTaskV2 created _ (by simp)⟩

/-! A task with two hidden fixtures and an entropy source that counts its draws. -/

def sampleFixture (fixtureId : SafeIdentifier) : HiddenFixtureDescriptor where
  fixtureId := fixtureId
  contentDigest := Sample.digest
  parameterSetDigest := Sample.digest
  rowCount := 9

def sampleFixtures : List HiddenFixtureDescriptor :=
  [sampleFixture ⟨"first".toList, by decide⟩, sampleFixture ⟨"second".toList, by decide⟩]

def sampleArguments : TaskArguments where
  validatorHotkey := Sample.validatorHotkey
  engineImageDigest := Sample.digest
  generatorSourceDigest := Sample.digest
  benchmarkPolicyDigest := Sample.digest
  benchmarkFamilyId := Sample.task.benchmarkFamilyId
  schemaSql := Sample.referenceSql
  referenceSql := Sample.referenceSql
  publicTrainingFixture := Sample.task.publicTrainingFixture
  parameterRanges := [Sample.parameterRange]
  publishedStatistics := Sample.statistics
  deadlineUnixMs := 3000
  hiddenFixtureFactory := fun _ => sampleFixtures

def countingEntropy : EntropySource Nat := fun size s => (List.replicate size s.toUInt8, s + 1)

def sampleReveal : TaskRevealV2 where
  taskId := hexConstrained ⟨List.replicate 16 0, rfl⟩
  secretSeedHex := hexConstrained ⟨List.replicate 32 1, rfl⟩
  saltHex := hexConstrained ⟨List.replicate 32 2, rfl⟩
  hiddenFixtures := sampleFixtures
  hiddenFixtureMerkleRoot := treeDigest
    (.node (.leaf (sampleFixture ⟨"first".toList, by decide⟩, 0))
      (.leaf (sampleFixture ⟨"second".toList, by decide⟩, 1)))
  fixtureBounds := by decide

def samplePrivateTask : PrivateTaskV2 where
  publicTask := publicTaskOf sampleArguments sampleReveal.taskId sampleReveal (by decide)
  reveal := sampleReveal

theorem sampleFixtures_root :
    hiddenFixtureMerkleRoot sampleFixtures = .ok sampleReveal.hiddenFixtureMerkleRoot := by
  exact hiddenFixtureMerkleRoot_pair _ _

/-- The root of a fixture list binds its length, its members and their order,
although odd levels are padded with their last node, unless two of the hashed
inputs collide. -/
theorem hiddenFixtureMerkleRoot_eq_iff {xs ys : List HiddenFixtureDescriptor}
    (hx : 2 ≤ xs.length) (hy : 2 ≤ ys.length) :
    Collision (merkleInputs xs ++ merkleInputs ys) ∨
      (hiddenFixtureMerkleRoot xs = hiddenFixtureMerkleRoot ys ↔ xs = ys) := by
  rcases collision_or_collisionFreeOn (merkleInputs xs ++ merkleInputs ys) with collision | free
  · exact .inl collision
  · refine .inr ⟨?_, fun he => by rw [he]⟩
    exact hiddenFixtureMerkleRoot_binds free hx hy (fun _ => List.mem_append_left _)
      fun _ => List.mem_append_right _

/-- Three fixtures, and the same three with the last one repeated. -/
def oddFixtures : List HiddenFixtureDescriptor := sampleFixtures ++ [sampleFixture Sample.events]

def paddedFixtures : List HiddenFixtureDescriptor := oddFixtures ++ [sampleFixture Sample.events]

theorem paddedFixtures_root_iff :
    Collision (merkleInputs oddFixtures ++ merkleInputs paddedFixtures) ∨
      (hiddenFixtureMerkleRoot oddFixtures = hiddenFixtureMerkleRoot paddedFixtures ↔
        oddFixtures = paddedFixtures) :=
  hiddenFixtureMerkleRoot_eq_iff (by decide) (by decide)

theorem samplePrivateTask_created :
    createTaskV2 sampleArguments countingEntropy 0 = .ok samplePrivateTask := by
  change assembleTask sampleArguments ⟨List.replicate 16 0, rfl⟩ ⟨List.replicate 32 1, rfl⟩
    ⟨List.replicate 32 2, rfl⟩ = _
  unfold assembleTask
  change (if _ then _ else if h : sampleFixtures.length < 2 then _ else if _ then _ else
    match hiddenFixtureMerkleRoot sampleFixtures with
    | .error e => _
    | .ok root => _) = _
  rw [sampleFixtures_root]
  rfl

/-- The sample task is created and opens its commitment, with and without its
factory; two openings of one commitment are one. -/
theorem commitment_binding_sample :
    createTaskV2 sampleArguments countingEntropy 0 = .ok samplePrivateTask ∧
      auditTaskReveal samplePrivateTask.publicTask sampleReveal none = .ok true ∧
      auditTaskReveal samplePrivateTask.publicTask sampleReveal
        (some sampleArguments.hiddenFixtureFactory) = .ok true ∧
      (Collision (auditInputs samplePrivateTask.publicTask sampleReveal ++
          auditInputs samplePrivateTask.publicTask sampleReveal) ∨
        samplePrivateTask.publicTask = samplePrivateTask.publicTask ∧
          sampleReveal = sampleReveal) := by
  obtain ⟨accepted, regenerated⟩ := commitment_binding.2 Nat _ _ _ _ samplePrivateTask_created
  exact ⟨samplePrivateTask_created, accepted, regenerated,
    commitment_binding.1 _ _ _ _ none _ rfl accepted regenerated⟩

end Creation

end TaskgenV2
