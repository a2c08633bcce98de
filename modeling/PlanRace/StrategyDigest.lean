import Mathlib.Data.Multiset.Filter
import PlanRace.IndexSql

/-!
# The digest of an executable strategy

Bundles with one strategy digest are evaluated once and share a reward. The
digest drops the task, the metadata and the order of the conjuncts. It keeps
the tag of every literal, which compiling drops for booleans: two bundles with
the same executable SQL share a digest exactly when they agree on where they
write a boolean literal.
-/

namespace StrategyDigest

open JsonText ByteStrings LexOrder Sha256 CanonicalJson WireText IndexAst SqlLexer CreateIndexReader
  IndexSql

section Digest

def strategyDomainV2 : Domain :=
  ⟨"planrace/2:executable-strategy".toList, by decide +kernel, by decide +kernel,
    by decide +kernel⟩

/-- `sorted(predicate["atoms"], key=canonical_json_bytes)`. -/
def sortedAtoms (predicate : PredicateExpression) : List Json :=
  sortBy UInt8.toNat canonicalJsonBytes (predicate.atoms.map modelDump)

def normalizedIndex (index : IndexSpec) : Json :=
  index.dumpWith <|
    match index.predicate with
    | none => .null
    | some predicate => PredicateExpression.dumpWith (sortedAtoms predicate)

def strategyPayload (bundle : OptimizationBundle) : Json :=
  .obj [("protocol_version".toList, .str protocolVersionV2),
    ("engine_image_digest".toList, modelDump bundle.engineImageDigest),
    ("indexes".toList, .arr (bundle.indexes.map normalizedIndex))]

def optimizationStrategyDigest (bundle : OptimizationBundle) : Text :=
  domainSeparatedDigest strategyDomainV2 (strategyPayload bundle)

/-- The bytes that the strategy digest hashes. -/
def strategyInput (bundle : OptimizationBundle) : Bytes :=
  hashInput strategyDomainV2 (strategyPayload bundle)

end Digest

section Payload

/-- Equal sorted encodings mean equal conjuncts up to their order. -/
theorem sortedAtoms_same_iff (p q : PredicateExpression) :
    (sortedAtoms p).map Json.normalize = (sortedAtoms q).map Json.normalize ↔
      p.atoms.Perm q.atoms := by
  have hinj : Function.Injective fun a : PredicateAtom => (modelDump a).normalize := fun a b he =>
    modelDump_inj a b he
  constructor
  · intro he
    have hp := (sortBy_perm UInt8.toNat canonicalJsonBytes (p.atoms.map modelDump)).map Json.normalize
    have hq := (sortBy_perm UInt8.toNat canonicalJsonBytes (q.atoms.map modelDump)).map Json.normalize
    have hperm := (hp.symm.trans (.of_eq he)).trans hq
    rw [List.map_map, List.map_map] at hperm
    exact (List.map_perm_map_iff hinj).mp hperm
  · intro hperm
    have keyInj : ∀ x ∈ p.atoms.map modelDump, ∀ y ∈ p.atoms.map modelDump,
        canonicalJsonBytes x = canonicalJsonBytes y → x = y := by
      intro x hx y hy he
      obtain ⟨a, _, rfl⟩ := List.mem_map.mp hx
      obtain ⟨b, _, rfl⟩ := List.mem_map.mp hy
      rw [modelDump_inj a b ((canonicalJsonBytes_eq_iff _ _).mp he)]
    have hsorted := sortBy_eq_of_perm (fun _ _ h => UInt8.toNat_inj.mp h) keyInj
      (hperm.map modelDump)
    exact congrArg (List.map Json.normalize) hsorted

/-- The conjuncts of an index without their order. -/
def conjuncts (index : IndexSpec) : Option (Multiset PredicateAtom) :=
  (specAtoms index).map fun atoms => (atoms : Multiset PredicateAtom)

/-- Indexes that the strategy digest does not tell apart. -/
structure SameIndex (s t : IndexSpec) : Prop where
  table : s.table = t.table
  keyColumns : s.keyColumns = t.keyColumns
  includeColumns : s.includeColumns = t.includeColumns
  unique : s.unique = t.unique
  conjuncts : conjuncts s = conjuncts t

theorem normalizedIndex_same_iff (s t : IndexSpec) :
    (normalizedIndex s).Same (normalizedIndex t) ↔ SameIndex s t := by
  have hpredicate : (match s.predicate with
      | none => Json.null
      | some predicate => PredicateExpression.dumpWith (sortedAtoms predicate)).Same
      (match t.predicate with
      | none => Json.null
      | some predicate => PredicateExpression.dumpWith (sortedAtoms predicate)) ↔
        conjuncts s = conjuncts t := by
    unfold conjuncts specAtoms
    cases s.predicate with
    | none =>
      cases t.predicate with
      | none => simp [Json.Same]
      | some q => simp [Json.Same, PredicateExpression.dumpWith, normalize_obj]
    | some p =>
      cases t.predicate with
      | none => simp [Json.Same, PredicateExpression.dumpWith, normalize_obj]
      | some q =>
        simpa using (PredicateExpression.dumpWith_same_iff _ _).trans (sortedAtoms_same_iff p q)
  refine (IndexSpec.dumpWith_same_iff s t _ _).trans ?_
  rw [hpredicate]
  exact ⟨fun ⟨h₁, h₂, h₃, h₄, h₅⟩ => ⟨h₁, h₂, h₃, h₄, h₅⟩,
    fun h => ⟨h.table, h.keyColumns, h.includeColumns, h.unique, h.conjuncts⟩⟩

theorem map_normalize_eq_iff {α : Type} (f : α → Json) (xs ys : List α) :
    (xs.map f).map Json.normalize = (ys.map f).map Json.normalize ↔
      List.Forall₂ (fun x y => (f x).Same (f y)) xs ys := by
  rw [← List.forall₂_eq_eq_eq, List.map_map, List.map_map, List.forall₂_map_left_iff,
    List.forall₂_map_right_iff]
  rfl

/-- What two bundles share when their strategy inputs agree. -/
theorem strategyInput_eq_iff (x y : OptimizationBundle) :
    strategyInput x = strategyInput y ↔
      x.engineImageDigest = y.engineImageDigest ∧ List.Forall₂ SameIndex x.indexes y.indexes := by
  have hindexes : (List.map normalizedIndex x.indexes).map Json.normalize =
      (List.map normalizedIndex y.indexes).map Json.normalize ↔
        List.Forall₂ SameIndex x.indexes y.indexes := by
    refine (map_normalize_eq_iff _ _ _).trans ?_
    constructor
    · exact List.Forall₂.imp fun s t h => (normalizedIndex_same_iff s t).mp h
    · exact List.Forall₂.imp fun s t h => (normalizedIndex_same_iff s t).mpr h
  rw [strategyInput, strategyInput, hashInput_eq_iff]
  unfold strategyPayload
  rw [same_obj_iff (by rfl) (by simp)]
  simp only [List.map_cons, List.map_nil, normalize_str, normalize_arr, normalize_modelDump_eq_iff,
    List.cons.injEq, Json.arr.injEq, and_true, true_and]
  exact and_congr_right fun _ => hindexes

end Payload

section SameSql

theorem transparent_never : Transparent fun _ => false :=
  transparent_of_nul_free fun _ h => absurd h (by decide)

/-- The statement contents behind `executableSql`. -/
def executableStatement (spec : IndexSpec) : CreateIndex :=
  statementOf [] spec ((specAtoms spec).map (sortBy Char.toNat conjunctText))

/-- Equal executable SQL has equal contents. -/
theorem executableStatement_eq {s t : IndexSpec} (h : executableSql s = executableSql t) :
    executableStatement s = executableStatement t := by
  have hread : ∀ spec : IndexSpec, readScript (fun _ => false)
      (statementText [] spec
        (((specAtoms spec).map (sortBy Char.toNat conjunctText)).map (List.map conjunctText))) =
        some [executableStatement spec] := by
    intro spec
    refine readScript_statementText transparent_never (by simp) spec ?_ fun _ _ _ _ _ _ => rfl
    intro h
    obtain ⟨atoms, hatoms, hsorted⟩ := Option.map_eq_some_iff.mp h
    have hlength := congrArg List.length hsorted
    rw [length_sortBy, List.length_nil, List.length_eq_zero_iff] at hlength
    exact specAtoms_ne_nil spec (hatoms.trans (by rw [hlength]))
  rw [executableSql_eq, executableSql_eq] at h
  have hboth := (hread s).symm.trans ((congrArg _ (Except.ok.inj h)).trans (hread t))
  exact List.singleton_inj.mp (Option.some.inj hboth)

/-- The terms of a statement determine its key and its included columns. -/
theorem columns_of_columnTerms {s t : IndexSpec} (h : columnTerms s = columnTerms t) :
    s.keyColumns = t.keyColumns ∧ s.includeColumns = t.includeColumns := by
  have keys : ∀ spec : IndexSpec, (columnTerms spec).filter (·.order.isSome) =
      spec.keyColumns.map fun item => ⟨item.column.val, some (sortOrder item.direction)⟩ := by
    intro spec
    rw [columnTerms, List.filter_append, List.filter_eq_self.mpr (by simp),
      List.filter_eq_nil_iff.mpr (by simp), List.append_nil]
  have includes : ∀ spec : IndexSpec, (columnTerms spec).filter (·.order.isNone) =
      spec.includeColumns.map fun item => ⟨item.val, none⟩ := by
    intro spec
    rw [columnTerms, List.filter_append, List.filter_eq_nil_iff.mpr (by simp),
      List.filter_eq_self.mpr (by simp), List.nil_append]
  constructor
  · have hkeys := (keys s).symm.trans ((congrArg _ h).trans (keys t))
    refine List.map_injective_iff.mpr ?_ hkeys
    rintro ⟨c, d⟩ ⟨c', d'⟩ he
    obtain ⟨hname, horder⟩ := ColumnTerm.mk.inj he
    have hcolumn : c = c' := Subtype.ext hname
    have hdirection : d = d' := by cases d <;> cases d' <;> first | rfl | cases horder
    rw [hcolumn, hdirection]
  · have hincludes := (includes s).symm.trans ((congrArg _ h).trans (includes t))
    refine List.map_injective_iff.mpr ?_ hincludes
    intro c c' he
    exact Subtype.ext (ColumnTerm.mk.inj he).1

end SameSql

section Booleans

/-- A comparison with a boolean literal. -/
def isBooleanAtom (atom : PredicateAtom) : Bool :=
  match atom.value with
  | .boolean _ => true
  | _ => false

def booleanAtoms (spec : IndexSpec) : List PredicateAtom :=
  ((specAtoms spec).getD []).filter isBooleanAtom

theorem literalValue_injective {u v : PredicateLiteral}
    (hu : ∀ b, u ≠ .boolean b) (hv : ∀ b, v ≠ .boolean b) (hu' : u ≠ .null) (hv' : v ≠ .null)
    (h : literalValue u = literalValue v) : u = v := by
  cases u <;> cases v <;> simp_all [literalValue]

theorem atomCondition_eq {a b : PredicateAtom} (h : atomCondition a = atomCondition b) :
    a.column.val = b.column.val ∧ a.operator = b.operator ∧
      (a.operator.testsNull = false → literalValue a.value = literalValue b.value) := by
  obtain ⟨c, op, v, hv⟩ := a
  obtain ⟨c', op', v', hv'⟩ := b
  cases op <;> cases op' <;> simp_all [atomCondition, PredicateOperator.testsNull]

/-- Without booleans, an atom is determined by what its conjunct reads back as. -/
theorem atomCondition_injective {a b : PredicateAtom} (ha : isBooleanAtom a = false)
    (hb : isBooleanAtom b = false) (h : atomCondition a = atomCondition b) : a = b := by
  obtain ⟨hcolumn, hoperator, hliteral⟩ := atomCondition_eq h
  have plain : ∀ x : PredicateAtom, isBooleanAtom x = false → ∀ w, x.value ≠ .boolean w := by
    intro x hx w hw
    rw [isBooleanAtom, hw] at hx
    cases hx
  have value : a.value = b.value := by
    have hnull := a.validateNullOperator
    have hnull' := b.validateNullOperator
    rw [← hoperator] at hnull'
    cases htest : a.operator.testsNull with
    | true =>
      rw [htest] at hnull hnull'
      rw [of_decide_eq_true hnull, of_decide_eq_true hnull']
    | false =>
      rw [htest] at hnull hnull'
      exact literalValue_injective (plain a ha) (plain b hb) (of_decide_eq_false hnull)
        (of_decide_eq_false hnull') (hliteral htest)
  have column : a.column = b.column := Subtype.ext hcolumn
  cases a
  cases b
  cases column
  cases hoperator
  cases value
  rfl

/-- Lists with the same images are the same up to order when the map does not
identify their elements. -/
theorem perm_of_map_perm {α β : Type} {f : α → β} {p : α → Bool} {xs ys : List α}
    (inj : ∀ x y, p x = true → p y = true → f x = f y → x = y)
    (hxs : ∀ x ∈ xs, p x = true) (hys : ∀ y ∈ ys, p y = true)
    (h : (xs.map f).Perm (ys.map f)) : xs.Perm ys := by
  have restricted : Function.Injective fun x : {x // p x = true} => f x.val := fun x y he =>
    Subtype.ext (inj x.val y.val x.property y.property he)
  have image : ∀ (zs : List α) (hzs : ∀ z ∈ zs, p z = true),
      (zs.attachWith (fun z => p z = true) hzs).map (fun x => f x.val) = zs.map f := fun zs hzs =>
    List.attachWith_map_val hzs
  rw [← image xs hxs, ← image ys hys] at h
  have hvalues := ((List.map_perm_map_iff restricted).mp h).map Subtype.val
  rwa [List.attachWith_map_subtype_val, List.attachWith_map_subtype_val] at hvalues

/-- Among conjunctions that read back alike, the boolean comparisons decide. -/
theorem perm_iff_booleans {xs ys : List PredicateAtom}
    (h : (xs.map atomCondition).Perm (ys.map atomCondition)) :
    xs.Perm ys ↔ (xs.filter isBooleanAtom).Perm (ys.filter isBooleanAtom) := by
  constructor
  · exact fun hp => hp.filter isBooleanAtom
  · intro hbool
    let plain : PredicateAtom → Bool := fun a => !isBooleanAtom a
    have split : ∀ zs : List PredicateAtom,
        (zs.filter isBooleanAtom ++ zs.filter plain).Perm zs := fun zs =>
      List.filter_append_perm isBooleanAtom zs
    have images := (((split xs).map atomCondition).trans h).trans ((split ys).map atomCondition).symm
    rw [List.map_append, List.map_append] at images
    have rest : ((xs.filter plain).map atomCondition).Perm ((ys.filter plain).map atomCondition) :=
      (List.perm_append_left_iff _).mp
        (((hbool.symm.map atomCondition).append_right _).trans images)
    have hplain : (xs.filter plain).Perm (ys.filter plain) := by
      refine perm_of_map_perm (p := plain) ?_ (fun x hx => (List.mem_filter.mp hx).2)
        (fun y hy => (List.mem_filter.mp hy).2) rest
      intro x y hx hy he
      exact atomCondition_injective (by simpa [plain] using hx) (by simpa [plain] using hy) he
    exact ((split xs).symm.trans (hbool.append hplain)).trans (split ys)

/-- Indexes with the same executable SQL differ for the digest only in their
boolean comparisons. -/
theorem sameIndex_iff_booleans {s t : IndexSpec} (h : executableSql s = executableSql t) :
    SameIndex s t ↔ (booleanAtoms s).Perm (booleanAtoms t) := by
  obtain ⟨unique, _, table, columns, conditions⟩ := CreateIndex.mk.inj (executableStatement_eq h)
  obtain ⟨keys, includes⟩ := columns_of_columnTerms columns
  have hconjuncts : conjuncts s = conjuncts t ↔ (booleanAtoms s).Perm (booleanAtoms t) := by
    unfold conjuncts booleanAtoms
    cases hs : specAtoms s with
    | none =>
      cases ht : specAtoms t with
      | none => simp
      | some bs => simp [hs, ht] at conditions
    | some as =>
      cases ht : specAtoms t with
      | none => simp [hs, ht] at conditions
      | some bs =>
        simp only [hs, ht, Option.map_some, Option.some.injEq] at conditions
        have images : (as.map atomCondition).Perm (bs.map atomCondition) :=
          (((sortBy_perm _ _ as).map atomCondition).symm.trans (.of_eq conditions)).trans
            ((sortBy_perm _ _ bs).map atomCondition)
        simpa using perm_iff_booleans images
  constructor
  · exact fun same => hconjuncts.mp same.conjuncts
  · exact fun same => ⟨Subtype.ext table, keys, includes, unique, hconjuncts.mpr same⟩

/-- For bundles of one engine whose indexes have the same executable SQL, the
strategy digests agree exactly when at every position the two predicates hold
the same boolean comparisons, collisions of the hash apart. -/
theorem sameSql_digest_iff (x y : OptimizationBundle)
    (engine : x.engineImageDigest = y.engineImageDigest)
    (sameSql : List.Forall₂ (fun s t => executableSql s = executableSql t) x.indexes y.indexes) :
    optimizationStrategyDigest x = optimizationStrategyDigest y ↔
      List.Forall₂ (fun s t => (booleanAtoms s).Perm (booleanAtoms t)) x.indexes y.indexes ∨
        Collision [strategyInput x, strategyInput y] := by
  have hindexes : List.Forall₂ SameIndex x.indexes y.indexes ↔
      List.Forall₂ (fun s t => (booleanAtoms s).Perm (booleanAtoms t)) x.indexes y.indexes := by
    generalize x.indexes = ss at sameSql
    generalize y.indexes = ts at sameSql
    induction sameSql with
    | nil => exact ⟨fun _ => .nil, fun _ => .nil⟩
    | cons hst _ ih => rw [List.forall₂_cons, List.forall₂_cons, ih, sameIndex_iff_booleans hst]
  have hdigest := digestText_eq_iff_or_collision (strategyInput x) (strategyInput y)
  rw [strategyInput_eq_iff, hindexes] at hdigest
  refine hdigest.trans ?_
  exact or_congr_left ⟨And.right, And.intro engine⟩

/-! Two bundles that write one comparison with 1 and with true. -/
namespace Sample

def engine : Sha256Digest := ⟨"sha256:".toList ++ List.replicate 64 '0', by decide⟩

def taskId : OpaqueId := ⟨List.replicate 32 'a', by decide⟩

def metadata : BundleMetadata := ⟨"partial".toList, .filter, [], by decide, by decide⟩

theorem day_isSafe : isSafeIdentifier "day".toList = true := by decide

def flagIndex (value : PredicateLiteral) (present : decide (value = .null) = false) : IndexSpec where
  table := IndexSql.Sample.hostileSpec.table
  keyColumns := [⟨IndexSql.Sample.column "day".toList day_isSafe, .asc⟩]
  includeColumns := []
  unique := false
  predicate := some ⟨[⟨IndexSql.Sample.column "paid".toList (by decide), .eq, value, present⟩],
    by simp⟩
  keyBounds := by simp
  includeBounds := by simp
  rejectDuplicateColumns := by simp
  rejectUniqueCovering := by simp

def integerBundle : OptimizationBundle :=
  .create taskId engine [flagIndex (.integer 1) rfl] metadata (by decide)

def booleanBundle : OptimizationBundle :=
  .create taskId engine [flagIndex (.boolean true) rfl] metadata (by decide)

end Sample

theorem integer_boolean_sameSql : List.Forall₂ (fun s t => executableSql s = executableSql t)
    Sample.integerBundle.indexes Sample.booleanBundle.indexes :=
  .cons (by decide +kernel) .nil

/-- One statement, two strategy digests. -/
theorem integer_boolean_split :
    Sample.integerBundle.engineImageDigest = Sample.booleanBundle.engineImageDigest ∧
      List.Forall₂ (fun s t => executableSql s = executableSql t)
        Sample.integerBundle.indexes Sample.booleanBundle.indexes ∧
      optimizationStrategyDigest Sample.integerBundle ≠
        optimizationStrategyDigest Sample.booleanBundle := by
  refine ⟨rfl, integer_boolean_sameSql, ?_⟩
  decide +kernel

theorem integer_boolean_digest_iff :
    optimizationStrategyDigest Sample.integerBundle =
        optimizationStrategyDigest Sample.booleanBundle ↔
      List.Forall₂ (fun s t => (booleanAtoms s).Perm (booleanAtoms t))
          Sample.integerBundle.indexes Sample.booleanBundle.indexes ∨
        Collision [strategyInput Sample.integerBundle, strategyInput Sample.booleanBundle] :=
  sameSql_digest_iff _ _ rfl integer_boolean_sameSql

end Booleans

end StrategyDigest
