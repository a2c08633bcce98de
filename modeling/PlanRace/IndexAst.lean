import PlanRace.WireText

/-!
# The structured index language of the v2 artifact

Predicate literals, atoms and conjunctions, index specifications and the
bundle a miner submits. Field bounds and validators are fields of the
structures.
-/

namespace IndexAst

open JsonText CanonicalJson WireText

inductive PredicateLiteral where
  | integer (value : Int)
  | text (value : Text) (short : value.length ≤ 256)
  | boolean (value : Bool)
  | null
deriving DecidableEq

namespace PredicateLiteral

def dump : PredicateLiteral → Json
  | integer v => .obj [("kind".toList, .str "integer".toList), ("value".toList, .int v)]
  | text v _ => .obj [("kind".toList, .str "text".toList), ("value".toList, .str v)]
  | boolean v => .obj [("kind".toList, .str "boolean".toList), ("value".toList, .bool v)]
  | null => .obj [("kind".toList, .str "null".toList)]

instance : WireModel PredicateLiteral where
  modelDump := dump
  modelDump_inj := by
    intro x y h
    cases x <;> cases y
    case null.null => rfl
    case null.integer | null.text | null.boolean | integer.null | text.null | boolean.null =>
      cases length_eq_of_normalize_obj_eq h
    all_goals
      have hvalues := values_of_same h (by simp) (by simp)
      simp at hvalues
    all_goals simp [hvalues]

end PredicateLiteral

inductive PredicateOperator where
  | eq
  | ne
  | lt
  | lte
  | gt
  | gte
  | isNull
  | isNotNull
deriving DecidableEq

namespace PredicateOperator

def text : PredicateOperator → Text
  | eq => "eq".toList
  | ne => "ne".toList
  | lt => "lt".toList
  | lte => "lte".toList
  | gt => "gt".toList
  | gte => "gte".toList
  | isNull => "is_null".toList
  | isNotNull => "is_not_null".toList

def all : List PredicateOperator := [eq, ne, lt, lte, gt, gte, isNull, isNotNull]

theorem text_injective : Function.Injective text := by
  intro a b he
  cases a <;> cases b <;> first | rfl | exact absurd he (by decide)

instance : WireModel PredicateOperator := .ofText text text_injective

/-- `self.operator in {"is_null", "is_not_null"}`. -/
def testsNull : PredicateOperator → Bool
  | isNull => true
  | isNotNull => true
  | _ => false

end PredicateOperator

structure PredicateAtom where
  column : SafeIdentifier
  operator : PredicateOperator
  value : PredicateLiteral
  /-- NULL literals are only valid with IS NULL operators. -/
  validateNullOperator : decide (value = .null) = operator.testsNull
deriving DecidableEq

namespace PredicateAtom

def dump (a : PredicateAtom) : Json :=
  .obj [("column".toList, modelDump a.column), ("operator".toList, modelDump a.operator),
    ("value".toList, modelDump a.value)]

instance : WireModel PredicateAtom where
  modelDump := dump
  modelDump_inj := by
    intro x y h
    have hvalues := values_of_same h rfl (of_decide_eq_true rfl)
    obtain ⟨_, _, _, _⟩ := x
    obtain ⟨_, _, _, _⟩ := y
    simpa using hvalues

end PredicateAtom

/-- A bounded conjunction; `conjunction` has the single value `"and"`. -/
structure PredicateExpression where
  atoms : List PredicateAtom
  bounds : 1 ≤ atoms.length ∧ atoms.length ≤ 8
deriving DecidableEq

namespace PredicateExpression

def dumpWith (atoms : List Json) : Json :=
  .obj [("conjunction".toList, .str "and".toList), ("atoms".toList, .arr atoms)]

def dump (p : PredicateExpression) : Json := dumpWith (p.atoms.map modelDump)

theorem dumpWith_same_iff (xs ys : List Json) :
    (dumpWith xs).Same (dumpWith ys) ↔ xs.map Json.normalize = ys.map Json.normalize := by
  unfold dumpWith
  refine (same_obj_iff (by rfl) (by simp)).trans ?_
  simp

instance : WireModel PredicateExpression where
  modelDump := dump
  modelDump_inj := by
    intro x y h
    have hatoms := modelDump_inj x.atoms y.atoms
      (by simpa [Json.Same, modelDump] using (dumpWith_same_iff _ _).mp h)
    cases x
    cases y
    cases hatoms
    rfl

end PredicateExpression

inductive Direction where
  | asc
  | desc
deriving DecidableEq

def Direction.text : Direction → Text
  | asc => "asc".toList
  | desc => "desc".toList

theorem Direction.text_injective : Function.Injective Direction.text := by
  intro a b he
  cases a <;> cases b <;> first | rfl | exact absurd he (by decide)

instance : WireModel Direction := .ofText Direction.text Direction.text_injective

structure IndexColumn where
  column : SafeIdentifier
  direction : Direction
deriving DecidableEq

instance : WireModel IndexColumn where
  modelDump c := .obj [("column".toList, modelDump c.column),
    ("direction".toList, modelDump c.direction)]
  modelDump_inj := by
    intro x y h
    have hvalues := values_of_same h rfl (of_decide_eq_true rfl)
    obtain ⟨_, _⟩ := x
    obtain ⟨_, _⟩ := y
    simpa using hvalues

/-- Miner-selected index structure without a name or executable SQL. -/
structure IndexSpec where
  table : SafeIdentifier
  keyColumns : List IndexColumn
  includeColumns : List SafeIdentifier
  unique : Bool
  predicate : Option PredicateExpression
  keyBounds : 1 ≤ keyColumns.length ∧ keyColumns.length ≤ 8
  includeBounds : includeColumns.length ≤ 8
  /-- An index may not repeat a column. -/
  rejectDuplicateColumns : (keyColumns.map IndexColumn.column ++ includeColumns).Nodup
  /-- Unique indexes cannot contain SQLite covering tail columns. -/
  rejectUniqueCovering : unique = true → includeColumns = []
deriving DecidableEq

namespace IndexSpec

/-- The dump of an index with the given image of its predicate. -/
def dumpWith (s : IndexSpec) (predicate : Json) : Json :=
  .obj [("table".toList, modelDump s.table), ("key_columns".toList, modelDump s.keyColumns),
    ("include_columns".toList, modelDump s.includeColumns), ("unique".toList, modelDump s.unique),
    ("predicate".toList, predicate)]

def dump (s : IndexSpec) : Json := s.dumpWith (dumpOption s.predicate)

theorem dumpWith_same_iff (s t : IndexSpec) (p q : Json) :
    (s.dumpWith p).Same (t.dumpWith q) ↔
      s.table = t.table ∧ s.keyColumns = t.keyColumns ∧ s.includeColumns = t.includeColumns ∧
        s.unique = t.unique ∧ p.Same q := by
  unfold dumpWith
  refine (same_obj_iff (by rfl) (by simp)).trans ?_
  simp [Json.Same]

instance : WireModel IndexSpec where
  modelDump := dump
  modelDump_inj := by
    intro x y h
    obtain ⟨htable, hkeys, hinclude, hunique, hpred⟩ := (dumpWith_same_iff x y _ _).mp h
    have present : ∀ p : PredicateExpression, (modelDump p).tag ≠ 0 := by
      intro p
      change Json.tag (.obj _) ≠ 0
      simp [Json.tag]
    have hpredicate := dumpOption_inj present _ _ hpred
    cases x
    cases y
    simp_all

end IndexSpec

inductive EstimatedIntent where
  | filter
  | join
  | order
  | group
  | covering
  | mixed
  | noIndex
deriving DecidableEq

def EstimatedIntent.text : EstimatedIntent → Text
  | filter => "filter".toList
  | join => "join".toList
  | order => "order".toList
  | group => "group".toList
  | covering => "covering".toList
  | mixed => "mixed".toList
  | noIndex => "no_index".toList

theorem EstimatedIntent.text_injective : Function.Injective EstimatedIntent.text := by
  intro a b he
  cases a <;> cases b <;> first | rfl | exact absurd he (by decide)

instance : WireModel EstimatedIntent := .ofText EstimatedIntent.text EstimatedIntent.text_injective

structure BundleMetadata where
  strategy : Text
  estimatedIntent : EstimatedIntent
  rationale : Text
  strategyBounds : 1 ≤ strategy.length ∧ strategy.length ≤ 128
  rationaleBound : rationale.length ≤ 512
deriving DecidableEq

theorem rationaleBound_nil : ([] : Text).length ≤ 512 := Nat.zero_le 512

instance : WireModel BundleMetadata where
  modelDump m := .obj [("strategy".toList, .str m.strategy),
    ("estimated_intent".toList, modelDump m.estimatedIntent), ("rationale".toList, .str m.rationale)]
  modelDump_inj := by
    intro x y h
    have hvalues := values_of_same h rfl (of_decide_eq_true rfl)
    obtain ⟨_, _, _, _, _⟩ := x
    obtain ⟨_, _, _, _, _⟩ := y
    simpa using hvalues

def protocolVersionV2 : Text := "planrace/2".toList

def artifactDomainV2 : Domain :=
  ⟨"planrace/2:optimization-bundle".toList, by decide +kernel, by decide +kernel,
    by decide +kernel⟩

/-- The members of a bundle's dump other than `artifact_digest`. -/
def bundleMembers (taskId : OpaqueId) (engineImageDigest : Sha256Digest)
    (indexes : List IndexSpec) (metadata : BundleMetadata) : List (Text × Json) :=
  [("protocol_version".toList, .str protocolVersionV2), ("task_id".toList, modelDump taskId),
    ("engine_image_digest".toList, modelDump engineImageDigest),
    ("indexes".toList, modelDump indexes), ("metadata".toList, modelDump metadata)]

/-- The only v2 miner artifact accepted by a validator. -/
structure OptimizationBundle where
  taskId : OpaqueId
  engineImageDigest : Sha256Digest
  indexes : List IndexSpec
  metadata : BundleMetadata
  artifactDigest : Sha256Digest
  indexBound : indexes.length ≤ 4
  verifyArtifactDigest : artifactDigest.val =
    domainSeparatedDigest artifactDomainV2
      (.obj (bundleMembers taskId engineImageDigest indexes metadata))
deriving DecidableEq

/-- `optimization_bundle_digest`: everything but the digest itself. -/
def optimizationBundleDigest (bundle : OptimizationBundle) : Text :=
  domainSeparatedDigest artifactDomainV2
    (.obj (bundleMembers bundle.taskId bundle.engineImageDigest bundle.indexes bundle.metadata))

namespace OptimizationBundle

/-- `OptimizationBundle.create`, for a list of indexes within the bound. -/
def create (taskId : OpaqueId) (engineImageDigest : Sha256Digest) (indexes : List IndexSpec)
    (metadata : BundleMetadata) (indexBound : indexes.length ≤ 4) : OptimizationBundle where
  taskId := taskId
  engineImageDigest := engineImageDigest
  indexes := indexes
  metadata := metadata
  artifactDigest :=
    payloadDigest artifactDomainV2 (.obj (bundleMembers taskId engineImageDigest indexes metadata))
  indexBound := indexBound
  verifyArtifactDigest := rfl

def dump (b : OptimizationBundle) : Json :=
  .obj (bundleMembers b.taskId b.engineImageDigest b.indexes b.metadata ++
    [("artifact_digest".toList, modelDump b.artifactDigest)])

instance : WireModel OptimizationBundle where
  modelDump := dump
  modelDump_inj := by
    intro x y h
    have hvalues := values_of_same h rfl (by simp [bundleMembers])
    obtain ⟨_, _, _, _, _, _, _⟩ := x
    obtain ⟨_, _, _, _, _, _, _⟩ := y
    simpa [bundleMembers] using hvalues

end OptimizationBundle

end IndexAst
