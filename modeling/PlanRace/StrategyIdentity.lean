import PlanRace.StrategyDigest

/-!
# What the strategy digest identifies

Bundles share a strategy digest when they run the same indexes on the same
engine. Two such indexes compile to one statement, up to its name and the order
of its conjuncts.
-/

namespace StrategyIdentity

open JsonText ByteStrings LexOrder Sha256 CanonicalJson WireText IndexAst IndexSql StrategyDigest

/-- Statements that differ in their index name and the order of their conjuncts only. -/
def SameStatement (s t : IndexSpec) : Prop :=
  ∃ cs ds : Option (List Text),
    compileIndexSql s = .ok (statementText (validatorIndexName s) s cs) ∧
      compileIndexSql t = .ok (statementText (validatorIndexName t) s ds) ∧
      cs.map Multiset.ofList = ds.map Multiset.ofList

theorem statementText_of_sameIndex {s t : IndexSpec} (same : SameIndex s t) (name : Text)
    (conjuncts : Option (List Text)) :
    statementText name s conjuncts = statementText name t conjuncts := by
  have columns : columnTexts s = columnTexts t := by
    rw [columnTexts, columnTexts, same.keyColumns, same.includeColumns]
  unfold statementText
  rw [same.unique, same.table, columns]

theorem conjuncts_eq (s : IndexSpec) : conjuncts s = (specAtoms s).map Multiset.ofList := by
  unfold conjuncts
  cases specAtoms s <;> rfl

theorem sameStatement_of_sameIndex {s t : IndexSpec} (same : SameIndex s t) : SameStatement s t := by
  have atoms := same.conjuncts
  refine ⟨_, (specAtoms t).map (List.map conjunctText), compileIndexSql_eq s, ?_, ?_⟩
  · rw [compileIndexSql_eq, statementText_of_sameIndex same]
  · rw [conjuncts_eq, conjuncts_eq] at atoms
    have images := congrArg (Option.map (Multiset.map conjunctText)) atoms
    rw [Option.map_map, Option.map_map] at images
    rw [Option.map_map, Option.map_map]
    exact images

theorem strategyInput_congr {x y : OptimizationBundle}
    (engine : x.engineImageDigest = y.engineImageDigest) (indexes : x.indexes = y.indexes) :
    strategyInput x = strategyInput y := by
  unfold strategyInput strategyPayload
  rw [engine, indexes]

/-- When the two hashed inputs do not collide, the digest identifies exactly the
engine and the indexes up to the order of their conjuncts, hence the compiled
statements; no other field of a bundle matters. -/
theorem strategyDigest_identifies (x y : OptimizationBundle)
    (free : CollisionFreeOn [strategyInput x, strategyInput y]) :
    (optimizationStrategyDigest x = optimizationStrategyDigest y ↔
        x.engineImageDigest = y.engineImageDigest ∧ List.Forall₂ SameIndex x.indexes y.indexes) ∧
      (optimizationStrategyDigest x = optimizationStrategyDigest y →
        List.Forall₂ SameStatement x.indexes y.indexes) ∧
      ∀ z : OptimizationBundle, z.engineImageDigest = x.engineImageDigest → z.indexes = x.indexes →
        optimizationStrategyDigest z = optimizationStrategyDigest x := by
  have identified : optimizationStrategyDigest x = optimizationStrategyDigest y ↔
      x.engineImageDigest = y.engineImageDigest ∧ List.Forall₂ SameIndex x.indexes y.indexes := by
    rw [← strategyInput_eq_iff]
    constructor
    · intro same
      exact free _ (by simp) _ (by simp) ((digestText_eq_iff _ _).mp same)
    · exact fun same => congrArg digestText same
  refine ⟨identified, fun same => ?_, fun z engine indexes => ?_⟩
  · exact (identified.mp same).2.imp fun s t => sameStatement_of_sameIndex
  · exact congrArg digestText (strategyInput_congr engine indexes)

/-! Two bundles with the conjuncts of one predicate in both orders. -/
namespace Sample

open StrategyDigest.Sample

def dayAtom : PredicateAtom :=
  ⟨IndexSql.Sample.column "day".toList day_isSafe, .gte, .integer 20, by decide⟩

def reorderedIndex (atoms : List PredicateAtom) (two : atoms.length = 2) : IndexSpec :=
  { IndexSql.Sample.hostileSpec with predicate := some ⟨atoms, by omega⟩ }

def firstBundle : OptimizationBundle :=
  .create taskId engine [reorderedIndex [IndexSql.Sample.hostileAtom, dayAtom] rfl] metadata
    (by decide)

theorem second_isHex : hexOfLength 32 (List.replicate 32 'b') = true := by decide

theorem covering_named : 1 ≤ "covering".toList.length ∧ "covering".toList.length ≤ 128 := by decide

theorem one_bounded (spec : IndexSpec) : [spec].length ≤ 4 := by
  rw [List.length_singleton]
  omega

def secondBundle : OptimizationBundle :=
  .create ⟨List.replicate 32 'b', second_isHex⟩ engine
    [reorderedIndex [dayAtom, IndexSql.Sample.hostileAtom] rfl]
    ⟨"covering".toList, .covering, [], covering_named, rationaleBound_nil⟩ (one_bounded _)

theorem sameInput : strategyInput firstBundle = strategyInput secondBundle := by
  refine (strategyInput_eq_iff _ _).mpr ⟨rfl, .cons ⟨rfl, rfl, rfl, rfl, ?_⟩ .nil⟩
  exact congrArg some (Multiset.coe_eq_coe.mpr (.swap _ _ _))

end Sample

theorem strategyDigest_identifies_reordered :
    (optimizationStrategyDigest Sample.firstBundle =
          optimizationStrategyDigest Sample.secondBundle ↔
        Sample.firstBundle.engineImageDigest = Sample.secondBundle.engineImageDigest ∧
          List.Forall₂ SameIndex Sample.firstBundle.indexes Sample.secondBundle.indexes) ∧
      (optimizationStrategyDigest Sample.firstBundle =
          optimizationStrategyDigest Sample.secondBundle →
        List.Forall₂ SameStatement Sample.firstBundle.indexes Sample.secondBundle.indexes) ∧
      ∀ z : OptimizationBundle, z.engineImageDigest = Sample.firstBundle.engineImageDigest →
        z.indexes = Sample.firstBundle.indexes →
        optimizationStrategyDigest z = optimizationStrategyDigest Sample.firstBundle :=
  strategyDigest_identifies _ _ (Sample.sameInput ▸ collisionFreeOn_singleton _)

end StrategyIdentity
