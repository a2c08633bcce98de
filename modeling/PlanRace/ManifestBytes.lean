import PlanRace.WireText
import PlanRace.Library.PropertyOrder
import PlanRace.Library.PythonValues
import Mathlib.Algebra.Order.Field.Basic

/-!
# The signed bytes of a manifest, in two languages

The producer sorts names by code points. The verifier sorts them by UTF-16 units and
builds an object, which enumerates array indices first. Both write the same bytes
exactly when the two orders agree on the keys of the one map a manifest has.
-/

namespace ManifestBytes

open UniqueReadability LexOrder JsonText ByteStrings CanonicalJson PythonValues PropertyOrder
open WireText hiding dumpOption modelDump

section Records

abbrev DigestHex := Constrained (hexOfLength 64)
abbrev GitCommit := Constrained (hexOfLength 40)
abbrev HexSignature := Constrained (hexOfLength 128)
abbrev NonEmptyText := Constrained (lengthBetween 1 4096)
abbrev EvidenceHotkey := Constrained (lengthBetween 40 64)

inductive SchemaVersion where
  | evidence1
  | evidence2
deriving DecidableEq

def SchemaVersion.text : SchemaVersion → Text
  | evidence1 => "planrace/evidence/1".toList
  | evidence2 => "planrace/evidence/2".toList

inductive Environment where
  | localnet
  | testnet
deriving DecidableEq

def Environment.text : Environment → Text
  | localnet => "localnet".toList
  | testnet => "testnet".toList

structure TaskRevealEvidence where
  taskId : NonEmptyText
  seed : Option Nat
  salt : Option NonEmptyText
  revealDigest : DigestHex
  verified : Bool

structure AuthenticationEvidence where
  authenticatedRequests : Nat
  signedResponses : Nat
  requestProtocol : NonEmptyText
  responseProtocol : Option NonEmptyText

structure ReadbackEvidence where
  validatorUid : Nat
  lastUpdate : Nat
  rawWeights : List (Nat × Nat)

structure TimestampEvidence where
  observedAt : NonEmptyText
  signedAt : NonEmptyText

structure SourceArtifactEvidence where
  path : NonEmptyText
  sha256 : DigestHex

structure ValidatorSignature where
  signerHotkey : EvidenceHotkey
  signedPayloadSha256 : DigestHex
  signatureHex : HexSignature

variable (K : Type) [Field K] [LinearOrder K]

structure ScoreEvidence where
  uid : Nat
  minerHotkey : EvidenceHotkey
  profile : NonEmptyText
  accepted : Bool
  correct : Bool
  score : K
  failureCode : Option NonEmptyText
  resultHash : Option DigestHex
  referenceHash : Option DigestHex
  strategyDigest : Option DigestHex := none
  scheduleDigest : Option DigestHex := none
  medianWarmMs : Option K
  setupMs : Option K
  planCost : Option Nat
  baselineRelativeSpeedup : Option K
  scoreNonneg : 0 ≤ score
  warmNonneg : ∀ x ∈ medianWarmMs, 0 ≤ x
  setupNonneg : ∀ x ∈ setupMs, 0 ≤ x
  speedupPositive : ∀ x ∈ baselineRelativeSpeedup, 0 < x

structure WeightPlanEvidence where
  uids : List Nat
  weights : List K
  weightBounds : ∀ x ∈ weights, 0 ≤ x ∧ x ≤ 1
  /-- `weights_are_normalized`. -/
  normalized : weights ≠ [] → |weights.sum - 1| ≤ 1e-9

structure ExtrinsicEvidence where
  extrinsicId : NonEmptyText
  blockHash : DigestHex
  success : Bool
  message : NonEmptyText
  feeTao : K
  feeNonneg : 0 ≤ feeTao

/-- The digest fields a score may have under a schema. -/
def scoreHashesMatch (schema : SchemaVersion) (protocolVersion : NonEmptyText)
    (score : ScoreEvidence K) : Prop :=
  match schema with
  | .evidence2 => protocolVersion.val = "planrace/2".toList ∧ score.resultHash = none ∧
      score.referenceHash = none ∧ score.strategyDigest ≠ none ∧ score.scheduleDigest ≠ none
  | .evidence1 => score.strategyDigest = none ∧ score.scheduleDigest = none

structure EvidenceManifest where
  schemaVersion : SchemaVersion := .evidence2
  environment : Environment
  network : NonEmptyText
  netuid : Nat
  runId : NonEmptyText
  epoch : Nat
  gitCommit : GitCommit
  containerDigests : List (NonEmptyText × DigestHex)
  protocolVersion : NonEmptyText
  validatorHotkeys : List EvidenceHotkey
  minerHotkeys : List EvidenceHotkey
  taskCommitment : DigestHex
  taskReveal : TaskRevealEvidence
  requestDigests : List DigestHex
  responseDigests : List DigestHex
  authentication : AuthenticationEvidence
  scores : List (ScoreEvidence K)
  weightPlan : WeightPlanEvidence K
  extrinsics : List (ExtrinsicEvidence K)
  readback : ReadbackEvidence
  timestamps : TimestampEvidence
  knownLimitations : List NonEmptyText
  sourceArtifacts : List SourceArtifactEvidence
  validatorSignature : ValidatorSignature
  netuidPositive : 1 ≤ netuid
  /-- The keys of a dictionary are distinct. -/
  containerNames : (containerDigests.map fun m => m.1.val).Nodup
  validatorsUnique : validatorHotkeys ≠ [] ∧ validatorHotkeys.Nodup
  minersUnique : minerHotkeys ≠ [] ∧ minerHotkeys.Nodup
  scoreHashes : ∀ score ∈ scores, scoreHashesMatch K schemaVersion protocolVersion score

end Records

section Dumps

variable {K : Type} [Field K] [LinearOrder K]

def dumpConstrained {accepts : Text → Bool} (t : Constrained accepts) : PyValue K := .str t.val

def dumpOption {α : Type} (dump : α → PyValue K) : Option α → PyValue K
  | none => .null
  | some x => dump x

def dumpNat (n : Nat) : PyValue K := .int n

def dumpList {α : Type} (dump : α → PyValue K) (xs : List α) : PyValue K := .seq .list (xs.map dump)

def dumpTaskReveal (x : TaskRevealEvidence) : PyValue K :=
  .dict [("task_id".toList, dumpConstrained x.taskId), ("seed".toList, dumpOption dumpNat x.seed),
    ("salt".toList, dumpOption dumpConstrained x.salt),
    ("reveal_digest".toList, dumpConstrained x.revealDigest),
    ("verified".toList, .bool x.verified)]

def dumpAuthentication (x : AuthenticationEvidence) : PyValue K :=
  .dict [("authenticated_requests".toList, dumpNat x.authenticatedRequests),
    ("signed_responses".toList, dumpNat x.signedResponses),
    ("request_protocol".toList, dumpConstrained x.requestProtocol),
    ("response_protocol".toList, dumpOption dumpConstrained x.responseProtocol)]

def dumpScore (x : ScoreEvidence K) : PyValue K :=
  .dict [("uid".toList, dumpNat x.uid), ("miner_hotkey".toList, dumpConstrained x.minerHotkey),
    ("profile".toList, dumpConstrained x.profile), ("accepted".toList, .bool x.accepted),
    ("correct".toList, .bool x.correct), ("score".toList, .float x.score),
    ("failure_code".toList, dumpOption dumpConstrained x.failureCode),
    ("result_hash".toList, dumpOption dumpConstrained x.resultHash),
    ("reference_hash".toList, dumpOption dumpConstrained x.referenceHash),
    ("strategy_digest".toList, dumpOption dumpConstrained x.strategyDigest),
    ("schedule_digest".toList, dumpOption dumpConstrained x.scheduleDigest),
    ("median_warm_ms".toList, dumpOption .float x.medianWarmMs),
    ("setup_ms".toList, dumpOption .float x.setupMs),
    ("plan_cost".toList, dumpOption dumpNat x.planCost),
    ("baseline_relative_speedup".toList, dumpOption .float x.baselineRelativeSpeedup)]

def dumpWeightPlan (x : WeightPlanEvidence K) : PyValue K :=
  .dict [("uids".toList, dumpList dumpNat x.uids), ("weights".toList, dumpList .float x.weights)]

def dumpExtrinsic (x : ExtrinsicEvidence K) : PyValue K :=
  .dict [("extrinsic_id".toList, dumpConstrained x.extrinsicId),
    ("block_hash".toList, dumpConstrained x.blockHash), ("success".toList, .bool x.success),
    ("message".toList, dumpConstrained x.message), ("fee_tao".toList, .float x.feeTao)]

def dumpReadback (x : ReadbackEvidence) : PyValue K :=
  .dict [("validator_uid".toList, dumpNat x.validatorUid),
    ("last_update".toList, dumpNat x.lastUpdate),
    ("raw_weights".toList, dumpList (fun w => .seq .list [dumpNat w.1, dumpNat w.2])
      x.rawWeights)]

def dumpTimestamps (x : TimestampEvidence) : PyValue K :=
  .dict [("observed_at".toList, dumpConstrained x.observedAt),
    ("signed_at".toList, dumpConstrained x.signedAt)]

def dumpSourceArtifact (x : SourceArtifactEvidence) : PyValue K :=
  .dict [("path".toList, dumpConstrained x.path), ("sha256".toList, dumpConstrained x.sha256)]

def dumpSignature (x : ValidatorSignature) : PyValue K :=
  .dict [("algorithm".toList, .str "sr25519".toList),
    ("signer_hotkey".toList, dumpConstrained x.signerHotkey),
    ("signed_payload_sha256".toList, dumpConstrained x.signedPayloadSha256),
    ("signature_hex".toList, dumpConstrained x.signatureHex)]

def dumpContainers (digests : List (NonEmptyText × DigestHex)) : PyValue K :=
  .dict (digests.map fun m => (m.1.val, dumpConstrained m.2))

/-- The members of `manifest.model_dump(mode="json")`. -/
def modelDump (m : EvidenceManifest K) : List (Text × PyValue K) :=
  [("schema_version".toList, .str m.schemaVersion.text),
    ("environment".toList, .str m.environment.text), ("network".toList, dumpConstrained m.network),
    ("netuid".toList, dumpNat m.netuid), ("run_id".toList, dumpConstrained m.runId),
    ("epoch".toList, dumpNat m.epoch), ("git_commit".toList, dumpConstrained m.gitCommit),
    ("container_digests".toList, dumpContainers m.containerDigests),
    ("protocol_version".toList, dumpConstrained m.protocolVersion),
    ("validator_hotkeys".toList, dumpList dumpConstrained m.validatorHotkeys),
    ("miner_hotkeys".toList, dumpList dumpConstrained m.minerHotkeys),
    ("task_commitment".toList, dumpConstrained m.taskCommitment),
    ("task_reveal".toList, dumpTaskReveal m.taskReveal),
    ("request_digests".toList, dumpList dumpConstrained m.requestDigests),
    ("response_digests".toList, dumpList dumpConstrained m.responseDigests),
    ("authentication".toList, dumpAuthentication m.authentication),
    ("scores".toList, dumpList dumpScore m.scores),
    ("weight_plan".toList, dumpWeightPlan m.weightPlan),
    ("extrinsics".toList, dumpList dumpExtrinsic m.extrinsics),
    ("readback".toList, dumpReadback m.readback),
    ("timestamps".toList, dumpTimestamps m.timestamps),
    ("known_limitations".toList, dumpList dumpConstrained m.knownLimitations),
    ("source_artifacts".toList, dumpList dumpSourceArtifact m.sourceArtifacts),
    ("validator_signature".toList, dumpSignature m.validatorSignature)]

def withoutSignature (members : List (Text × PyValue K)) : List (Text × PyValue K) :=
  members.filter fun m => m.1 ≠ "validator_signature".toList

end Dumps

/-- The doubles as both languages have them. An integer below `2 ^ 53` is a double, and
the verifier's engine writes its digits. -/
structure Doubles (K : Type) where
  /-- `int(x)`, when `x.is_integer()`. -/
  integer? : K → Option Int
  /-- `repr(x)`. -/
  floatText : K → Text
  /-- What `JSON.parse` makes of the digits of an integer. -/
  ofInt : Int → K
  /-- What `JSON.stringify` makes of a finite number. -/
  numberText : K → Text
  numberText_ofInt : ∀ i, i.natAbs < 2 ^ 53 → numberText (ofInt i) = intText i
  numberText_integer : ∀ x i, integer? x = some i → i.natAbs < 2 ^ 53 → numberText x = intText i

section Passes

variable {K : Type}

/-- The compact text of a value, whose members are written in an order. -/
def textOf (number : K → Text) (order : List (Text × Text) → List (Text × Text)) :
    PyValue K → Text :=
  Walk.run {
    null := "null".toList
    bool := fun b => if b then "true".toList else "false".toList
    int := intText
    float := number
    str := quote
    seq := fun _ _ done => '[' :: (joinWith [','] done ++ [']'])
    dict := fun done => '{' :: (joinWith [','] ((order done).map memberText) ++ ['}']) }

/-- `_normalize_json_numbers`, on finite floats. -/
def normalizeJsonNumbers (doubles : Doubles K) : PyValue K → PyValue K :=
  Walk.run {
    null := .null
    bool := .bool
    int := .int
    float := fun x => match doubles.integer? x with
      | some i => .int i
      | none => .float x
    str := .str
    seq := fun _ _ done => .seq .list done
    dict := .dict }

/-- `json.dumps(value, sort_keys=True)`. -/
def pythonDumps (doubles : Doubles K) : PyValue K → Text :=
  textOf doubles.floatText (sortBy Char.toNat Prod.fst)

/-- `JSON.parse` of the document. All its numbers are doubles. -/
def parsed (doubles : Doubles K) : PyValue K → PyValue K :=
  Walk.run {
    null := .null
    bool := .bool
    int := fun i => .float (doubles.ofInt i)
    float := .float
    str := .str
    seq := fun _ _ done => .seq .list done
    dict := .dict }

/-- Objects are the lists of their entries, in the order of creation. -/
def canonicalValue : PyValue K → PyValue K :=
  Walk.run {
    null := .null
    bool := .bool
    int := .int
    float := .float
    str := .str
    seq := fun kind _ done => .seq kind done
    dict := fun done => .dict (sortUnits done) }

/-- `JSON.stringify(value)`. -/
def stringify (doubles : Doubles K) : PyValue K → Text := textOf doubles.numberText properties

end Passes

section Bytes

variable {K : Type} [Field K] [LinearOrder K]

/-- `canonical_manifest_bytes`. -/
def canonicalManifestBytes (doubles : Doubles K) (manifest : EvidenceManifest K) : Bytes :=
  utf8 (pythonDumps doubles
    (normalizeJsonNumbers doubles (.dict (withoutSignature (modelDump manifest)))))

/-- `canonicalManifestBytes` of the dashboard, at the members of a parsed manifest. -/
def dashboardManifestBytes (doubles : Doubles K) (members : List (Text × PyValue K)) : Bytes :=
  utf8 (stringify doubles (canonicalValue (.dict (withoutSignature members))))

/-- The members the dashboard parses from the document of a manifest. -/
def parsedMembers (doubles : Doubles K) (manifest : EvidenceManifest K) :
    List (Text × PyValue K) :=
  (modelDump manifest).map fun m => (m.1, parsed doubles m.2)

end Bytes

section Documents

variable {K : Type} {doubles : Doubles K}

/-- The numbers of a value are integers of absolute value below `2 ^ 53`. -/
def Safe (doubles : Doubles K) : PyValue K → Prop :=
  Walk.run {
    null := True
    bool := fun _ => True
    int := fun i => i.natAbs < 2 ^ 53
    float := fun x => ∃ i, doubles.integer? x = some i ∧ i.natAbs < 2 ^ 53
    str := fun _ => True
    seq := fun _ _ done => ∀ p ∈ done, p
    dict := fun done => ∀ m ∈ done, m.2 }

theorem safe_seq_iff {kind : SequenceKind} {items : List (PyValue K)} :
    Safe doubles (.seq kind items) ↔ ∀ x ∈ items, Safe doubles x := by
  rw [Safe, Walk.run_seq]
  exact List.forall_mem_map

theorem safe_dict_iff {members : List (Text × PyValue K)} :
    Safe doubles (.dict members) ↔ ∀ m ∈ members, Safe doubles m.2 := by
  rw [Safe, Walk.run_dict]
  exact List.forall_mem_map

/-- The document of a value of integers, with the members of every object in an order. -/
def document (doubles : Doubles K) (order : List (Text × Json) → List (Text × Json)) :
    PyValue K → Json :=
  Walk.run {
    null := .null
    bool := .bool
    int := .int
    float := fun x => .int ((doubles.integer? x).getD 0)
    str := .str
    seq := fun _ _ done => .arr done
    dict := fun done => .obj (order done) }

theorem document_seq (order : List (Text × Json) → List (Text × Json)) (kind : SequenceKind)
    (items : List (PyValue K)) :
    document doubles order (.seq kind items) = .arr (items.map (document doubles order)) :=
  Walk.run_seq _ _ _

theorem document_dict (order : List (Text × Json) → List (Text × Json))
    (members : List (Text × PyValue K)) :
    document doubles order (.dict members) =
      .obj (order (members.map fun m => (m.1, document doubles order m.2))) :=
  Walk.run_dict _ _

theorem textOf_seq (number : K → Text) (order : List (Text × Text) → List (Text × Text))
    (kind : SequenceKind) (items : List (PyValue K)) :
    textOf number order (.seq kind items) =
      '[' :: (joinWith [','] (items.map (textOf number order)) ++ [']']) :=
  Walk.run_seq _ _ _

theorem textOf_dict (number : K → Text) (order : List (Text × Text) → List (Text × Text))
    (members : List (Text × PyValue K)) :
    textOf number order (.dict members) =
      '{' :: (joinWith [','] ((order (members.map fun m =>
        (m.1, textOf number order m.2))).map memberText) ++ ['}']) :=
  Walk.run_dict _ _

def printMember (m : Text × Json) : Text × Text := (m.1, dumps false m.2)

theorem printMember_eq : printMember = fun m : Text × Json => (m.1, dumps false m.2) := rfl

/-- An order that looks at names alone prints the members it orders. -/
theorem dumps_ordered {orderText : List (Text × Text) → List (Text × Text)}
    {order : List (Text × Json) → List (Text × Json)} {members : List (Text × Json)}
    (natural : orderText (members.map printMember) = (order members).map printMember) :
    '{' :: (joinWith [','] ((orderText (members.map printMember)).map memberText) ++ ['}']) =
      dumps false (.obj (order members)) := by
  rw [natural, dumps_obj_unsorted, List.map_map]
  rfl

def codePointOrder {β : Type} (members : List (Text × β)) : List (Text × β) :=
  sortBy Char.toNat Prod.fst members

def engineOrder {β : Type} (members : List (Text × β)) : List (Text × β) :=
  properties (sortUnits members)

theorem bool_text (b : Bool) :
    (if b then "true".toList else "false".toList) = dumps false (.bool b) := by
  cases b <;> rfl

/-- The producer prints the document with its names in the order of code points. -/
theorem pythonDumps_normalized {v : PyValue K} (safe : Safe doubles v) :
    pythonDumps doubles (normalizeJsonNumbers doubles v) =
      dumps false (document doubles codePointOrder v) := by
  induction v with
  | null => rfl
  | bool b => exact bool_text b
  | int i => rfl
  | float x =>
    obtain ⟨i, integral, _⟩ := safe
    have normalized : normalizeJsonNumbers doubles (.float x) = .int i := by
      change (match doubles.integer? x with | some i => PyValue.int i | none => .float x) = _
      rw [integral]
    have written : document doubles codePointOrder (.float x) = .int i := by
      change Json.int _ = _
      rw [integral]
      rfl
    rw [normalized, written]
    rfl
  | str s => rfl
  | seq kind items ih =>
    have parts := safe_seq_iff.mp safe
    have printed : (items.map (normalizeJsonNumbers doubles)).map (pythonDumps doubles) =
        (items.map (document doubles codePointOrder)).map (dumps false) := by
      rw [List.map_map, List.map_map]
      exact List.map_congr_left fun x hx => ih x hx (parts x hx)
    rw [normalizeJsonNumbers, Walk.run_seq, ← normalizeJsonNumbers, pythonDumps, textOf_seq,
      ← pythonDumps, printed, document_seq, dumps_arr]
  | dict members ih =>
    have parts := safe_dict_iff.mp safe
    have printed : (members.map fun m => (m.1, normalizeJsonNumbers doubles m.2)).map
        (fun m => (m.1, pythonDumps doubles m.2)) =
          (members.map fun m => (m.1, document doubles codePointOrder m.2)).map printMember := by
      rw [List.map_map, List.map_map]
      exact List.map_congr_left fun m hm => Prod.ext rfl (ih m hm (parts m hm))
    rw [normalizeJsonNumbers, Walk.run_dict, ← normalizeJsonNumbers, pythonDumps, textOf_dict,
      ← pythonDumps, printed, document_dict]
    exact dumps_ordered (map_sortBy _ _ _ _ _ fun _ _ => rfl).symm

/-- The verifier prints the document with its names in the order of the engine. -/
theorem stringify_parsed {v : PyValue K} (safe : Safe doubles v) :
    stringify doubles (canonicalValue (parsed doubles v)) =
      dumps false (document doubles engineOrder v) := by
  induction v with
  | null => rfl
  | bool b => exact bool_text b
  | int i => exact doubles.numberText_ofInt i safe
  | float x =>
    obtain ⟨i, integral, small⟩ := safe
    have written : document doubles engineOrder (.float x) = .int i := by
      change Json.int _ = _
      rw [integral]
      rfl
    rw [written]
    exact doubles.numberText_integer x i integral small
  | str s => rfl
  | seq kind items ih =>
    have parts := safe_seq_iff.mp safe
    have printed : ((items.map (parsed doubles)).map canonicalValue).map (stringify doubles) =
        (items.map (document doubles engineOrder)).map (dumps false) := by
      rw [List.map_map, List.map_map, List.map_map]
      exact List.map_congr_left fun x hx => ih x hx (parts x hx)
    rw [parsed, Walk.run_seq, ← parsed, canonicalValue, Walk.run_seq, ← canonicalValue, stringify,
      textOf_seq, ← stringify, printed, document_seq, dumps_arr]
  | dict members ih =>
    have parts := safe_dict_iff.mp safe
    have printed : ((members.map fun m => (m.1, parsed doubles m.2)).map
        fun m => (m.1, canonicalValue m.2)).map (fun m => (m.1, stringify doubles m.2)) =
          (members.map fun m => (m.1, document doubles engineOrder m.2)).map printMember := by
      rw [List.map_map, List.map_map, List.map_map]
      exact List.map_congr_left fun m hm => Prod.ext rfl (ih m hm (parts m hm))
    rw [parsed, Walk.run_dict, ← parsed, canonicalValue, Walk.run_dict, ← canonicalValue,
      stringify, textOf_dict, ← stringify, ← map_sortUnits, printed, document_dict]
    change '{' :: (joinWith [','] ((engineOrder (List.map printMember _)).map memberText) ++ ['}']) = _
    refine dumps_ordered ?_
    rw [engineOrder, printMember_eq, map_sortUnits, map_properties]
    rfl

/-- The names of every object have the property. -/
def EveryObject (P : List Text → Prop) : PyValue K → Prop :=
  Walk.run {
    null := True
    bool := fun _ => True
    int := fun _ => True
    float := fun _ => True
    str := fun _ => True
    seq := fun _ _ done => ∀ p ∈ done, p
    dict := fun done => P (done.map Prod.fst) ∧ ∀ m ∈ done, m.2 }

variable {P : List Text → Prop}

theorem everyObject_seq_iff {kind : SequenceKind} {items : List (PyValue K)} :
    EveryObject P (.seq kind items) ↔ ∀ x ∈ items, EveryObject P x := by
  rw [EveryObject, Walk.run_seq]
  exact List.forall_mem_map

theorem everyObject_dict_iff {members : List (Text × PyValue K)} :
    EveryObject P (.dict members) ↔
      P (members.map Prod.fst) ∧ ∀ m ∈ members, EveryObject P m.2 := by
  have names : (members.map fun m => (m.1, EveryObject P m.2)).map Prod.fst =
      members.map Prod.fst := by
    rw [List.map_map]
    rfl
  rw [EveryObject, Walk.run_dict, ← EveryObject, ← names]
  exact and_congr_right fun _ => List.forall_mem_map

/-- The documents of the two languages are one exactly when every object of the value has
its names in one order. -/
theorem document_eq_iff {v : PyValue K} (distinct : EveryObject List.Nodup v) :
    document doubles codePointOrder v = document doubles engineOrder v ↔
      EveryObject SameOrder v := by
  induction v with
  | null => exact iff_of_true rfl trivial
  | bool b => exact iff_of_true rfl trivial
  | int i => exact iff_of_true rfl trivial
  | float x => exact iff_of_true rfl trivial
  | str s => exact iff_of_true rfl trivial
  | seq kind items ih =>
    have parts := everyObject_seq_iff.mp distinct
    rw [document_seq, document_seq, Json.arr.injEq, List.map_inj_left, everyObject_seq_iff]
    exact forall₂_congr fun x hx => ih x hx (parts x hx)
  | dict members ih =>
    obtain ⟨names, parts⟩ := everyObject_dict_iff.mp distinct
    let printed : (PyValue K → Json) → Text × PyValue K → Text × Json := fun f m => (m.1, f m.2)
    have points : codePointOrder (members.map fun m => (m.1, document doubles codePointOrder m.2)) =
        (codePointOrder members).map (printed (document doubles codePointOrder)) :=
      (map_sortBy _ _ _ _ _ fun _ _ => rfl).symm
    have engine : engineOrder (members.map fun m => (m.1, document doubles engineOrder m.2)) =
        (engineOrder members).map (printed (document doubles engineOrder)) := by
      rw [engineOrder, map_sortUnits, map_properties]
      rfl
    have perm : (codePointOrder members).Perm (engineOrder members) :=
      (sortBy_perm _ _ _).trans (sortedProperties_perm members).symm
    have distinctNames : ((codePointOrder members).map Prod.fst).Nodup :=
      ((sortBy_perm _ _ members).map Prod.fst).nodup_iff.mpr names
    rw [document_dict, document_dict, Json.obj.injEq, points, engine, everyObject_dict_iff,
      ← sortedProperties_eq_iff names]
    constructor
    · intro same
      have keys : (codePointOrder members).map Prod.fst = (engineOrder members).map Prod.fst := by
        have firsts := congrArg (List.map Prod.fst) same
        rwa [List.map_map, List.map_map] at firsts
      have order := eq_of_perm_of_keys keys distinctNames perm
      rw [← order, List.map_inj_left] at same
      refine ⟨order.symm, fun m hm => (ih m hm (parts m hm)).mp ?_⟩
      exact congrArg Prod.snd (same m (mem_sortBy.mpr hm))
    · rintro ⟨order, values⟩
      have order : engineOrder members = codePointOrder members := order
      rw [order, List.map_inj_left]
      intro m hm
      have hm : m ∈ members := mem_sortBy.mp hm
      exact Prod.ext rfl ((ih m hm (parts m hm)).mpr (values m hm))

end Documents

section Names

variable {K : Type} {P : List Text → Prop}

/-- A property that names written in the source have. -/
def HoldsOfNames (P : List Text → Prop) : Prop :=
  ∀ names : List Text, names.all isPlain = true → names.Nodup → P names

theorem everyObject_dumpNat (n : Nat) : EveryObject P (dumpNat (K := K) n) := trivial

theorem everyObject_dumpConstrained {accepts : Text → Bool} (t : Constrained accepts) :
    EveryObject P (dumpConstrained (K := K) t) := trivial

theorem everyObject_dumpOption {α : Type} {dump : α → PyValue K}
    (parts : ∀ x, EveryObject P (dump x)) (x : Option α) : EveryObject P (dumpOption dump x) := by
  cases x with
  | none => trivial
  | some x => exact parts x

theorem everyObject_dumpList {α : Type} {dump : α → PyValue K}
    (parts : ∀ x, EveryObject P (dump x)) (xs : List α) : EveryObject P (dumpList dump xs) :=
  everyObject_seq_iff.mpr (List.forall_mem_map.mpr fun x _ => parts x)

theorem everyObject_dumpTaskReveal (holds : HoldsOfNames P) (x : TaskRevealEvidence) :
    EveryObject P (dumpTaskReveal (K := K) x) := by
  refine everyObject_dict_iff.mpr ⟨holds _ (by rfl) (of_decide_eq_true rfl), ?_⟩
  simp only [List.forall_mem_cons]
  exact ⟨trivial, everyObject_dumpOption everyObject_dumpNat _,
    everyObject_dumpOption everyObject_dumpConstrained _, trivial, trivial, nofun⟩

theorem everyObject_dumpAuthentication (holds : HoldsOfNames P) (x : AuthenticationEvidence) :
    EveryObject P (dumpAuthentication (K := K) x) := by
  refine everyObject_dict_iff.mpr ⟨holds _ (by rfl) (of_decide_eq_true rfl), ?_⟩
  simp only [List.forall_mem_cons]
  exact ⟨trivial, trivial, trivial, everyObject_dumpOption everyObject_dumpConstrained _, nofun⟩

theorem everyObject_dumpReadback (holds : HoldsOfNames P) (x : ReadbackEvidence) :
    EveryObject P (dumpReadback (K := K) x) := by
  refine everyObject_dict_iff.mpr ⟨holds _ (by rfl) (of_decide_eq_true rfl), ?_⟩
  simp only [List.forall_mem_cons]
  refine ⟨trivial, trivial, everyObject_dumpList (fun weight => ?_) _, nofun⟩
  simp only [everyObject_seq_iff, List.forall_mem_cons]
  exact ⟨trivial, trivial, nofun⟩

theorem everyObject_dumpTimestamps (holds : HoldsOfNames P) (x : TimestampEvidence) :
    EveryObject P (dumpTimestamps (K := K) x) := by
  refine everyObject_dict_iff.mpr ⟨holds _ (by rfl) (of_decide_eq_true rfl), ?_⟩
  simp only [List.forall_mem_cons]
  exact ⟨trivial, trivial, nofun⟩

theorem everyObject_dumpSourceArtifact (holds : HoldsOfNames P) (x : SourceArtifactEvidence) :
    EveryObject P (dumpSourceArtifact (K := K) x) := by
  refine everyObject_dict_iff.mpr ⟨holds _ (by rfl) (of_decide_eq_true rfl), ?_⟩
  simp only [List.forall_mem_cons]
  exact ⟨trivial, trivial, nofun⟩

theorem everyObject_dumpContainers_iff {digests : List (NonEmptyText × DigestHex)} :
    EveryObject P (dumpContainers (K := K) digests) ↔ P (digests.map fun m => m.1.val) := by
  rw [dumpContainers, everyObject_dict_iff, List.map_map]
  exact and_iff_left (List.forall_mem_map.mpr fun _ _ => trivial)

end Names

section Manifests

variable {K : Type} [Field K] [LinearOrder K] {doubles : Doubles K} {P : List Text → Prop}

theorem everyObject_dumpScore (holds : HoldsOfNames P) (x : ScoreEvidence K) :
    EveryObject P (dumpScore x) := by
  have double : ∀ x : K, EveryObject P (.float x) := fun _ => trivial
  have number : ∀ x : Option K, EveryObject P (dumpOption .float x) :=
    everyObject_dumpOption double
  refine everyObject_dict_iff.mpr ⟨holds _ (by rfl) (of_decide_eq_true rfl), ?_⟩
  simp only [List.forall_mem_cons]
  exact ⟨trivial, trivial, trivial, trivial, trivial, trivial,
    everyObject_dumpOption everyObject_dumpConstrained _,
    everyObject_dumpOption everyObject_dumpConstrained _,
    everyObject_dumpOption everyObject_dumpConstrained _,
    everyObject_dumpOption everyObject_dumpConstrained _,
    everyObject_dumpOption everyObject_dumpConstrained _, number _, number _,
    everyObject_dumpOption everyObject_dumpNat _, number _, nofun⟩

theorem everyObject_dumpWeightPlan (holds : HoldsOfNames P) (x : WeightPlanEvidence K) :
    EveryObject P (dumpWeightPlan x) := by
  refine everyObject_dict_iff.mpr ⟨holds _ (by rfl) (of_decide_eq_true rfl), ?_⟩
  simp only [List.forall_mem_cons]
  have double : ∀ x : K, EveryObject P (.float x) := fun _ => trivial
  exact ⟨everyObject_dumpList everyObject_dumpNat _, everyObject_dumpList double _, nofun⟩

theorem everyObject_dumpExtrinsic (holds : HoldsOfNames P) (x : ExtrinsicEvidence K) :
    EveryObject P (dumpExtrinsic x) := by
  refine everyObject_dict_iff.mpr ⟨holds _ (by rfl) (of_decide_eq_true rfl), ?_⟩
  simp only [List.forall_mem_cons]
  exact ⟨trivial, trivial, trivial, trivial, trivial, nofun⟩

/-- The keys of the container digests are the only names that a manifest chooses. -/
theorem everyObject_payload_iff (holds : HoldsOfNames P) (m : EvidenceManifest K) :
    EveryObject P (.dict (withoutSignature (modelDump m))) ↔
      P (m.containerDigests.map fun x => x.1.val) := by
  have kept : withoutSignature (modelDump m) = (modelDump m).dropLast := rfl
  have texts : ∀ {accepts : Text → Bool} (xs : List (Constrained accepts)),
      EveryObject P (dumpList (dumpConstrained (K := K)) xs) :=
    fun xs => everyObject_dumpList everyObject_dumpConstrained xs
  rw [kept, everyObject_dict_iff]
  simp only [modelDump, List.dropLast_cons_cons, List.dropLast_singleton, List.forall_mem_cons,
    everyObject_dumpContainers_iff]
  constructor
  · rintro ⟨-, -, -, -, -, -, -, -, containers, -⟩
    exact containers
  · intro containers
    exact ⟨holds _ (by rfl) (of_decide_eq_true rfl), trivial, trivial, trivial, trivial, trivial, trivial,
      trivial, containers, trivial, texts _, texts _, trivial, everyObject_dumpTaskReveal holds _,
      texts _, texts _, everyObject_dumpAuthentication holds _,
      everyObject_dumpList (everyObject_dumpScore holds) _, everyObject_dumpWeightPlan holds _,
      everyObject_dumpList (everyObject_dumpExtrinsic holds) _, everyObject_dumpReadback holds _,
      everyObject_dumpTimestamps holds _, texts _,
      everyObject_dumpList (everyObject_dumpSourceArtifact holds) _, nofun⟩

/-- The numbers of the manifest are integers of absolute value below `2 ^ 53`. -/
def SafeNumbers (doubles : Doubles K) (m : EvidenceManifest K) : Prop :=
  Safe doubles (.dict (modelDump m))

/-- What the engine has to order as code points do. -/
def containerKeys (m : EvidenceManifest K) : List Text := m.containerDigests.map fun x => x.1.val

theorem dashboardManifestBytes_parsed (m : EvidenceManifest K) :
    dashboardManifestBytes doubles (parsedMembers doubles m) =
      utf8 (stringify doubles (canonicalValue
        (parsed doubles (.dict (withoutSignature (modelDump m)))))) := by
  have members : withoutSignature (parsedMembers doubles m) =
      (withoutSignature (modelDump m)).map fun x => (x.1, parsed doubles x.2) := List.filter_map
  rw [dashboardManifestBytes, members, parsed, Walk.run_dict]

theorem bytes_eq_iff {m : EvidenceManifest K} (safe : SafeNumbers doubles m) :
    canonicalManifestBytes doubles m = dashboardManifestBytes doubles (parsedMembers doubles m) ↔
      SameOrder (containerKeys m) := by
  have payload : Safe doubles (.dict (withoutSignature (modelDump m))) :=
    safe_dict_iff.mpr fun x hx => safe_dict_iff.mp safe x (List.mem_of_mem_filter hx)
  have distinct : EveryObject List.Nodup (.dict (withoutSignature (modelDump m))) :=
    (everyObject_payload_iff (fun _ _ distinct => distinct) m).mpr m.containerNames
  rw [dashboardManifestBytes_parsed, canonicalManifestBytes, utf8_injective.eq_iff,
    pythonDumps_normalized payload, stringify_parsed payload, dumps_injective.eq_iff,
    document_eq_iff distinct]
  exact everyObject_payload_iff (fun _ plain _ => sameOrder_of_plain plain) m

/-- Both languages have the same signed bytes exactly when they order the container keys
alike. -/
theorem canonicalManifestBytes_agree_iff (doubles : Doubles K) (m : EvidenceManifest K)
    (safe : SafeNumbers doubles m) :
    canonicalManifestBytes doubles m = dashboardManifestBytes doubles (parsedMembers doubles m) ↔
      SameOrder (containerKeys m) :=
  bytes_eq_iff safe

end Manifests

section Sample

/-- Doubles that are told apart by their values. -/
def rationals : Doubles ℚ where
  integer? x := if x.den = 1 then some x.num else none
  floatText x := intText x.num ++ '/' :: intText x.den
  ofInt i := i
  numberText x := if x.den = 1 then intText x.num else intText x.num ++ '/' :: intText x.den
  numberText_ofInt i _ := by
    rw [if_pos (Rat.den_intCast i), Rat.num_intCast]
  numberText_integer x i integral _ := by
    split_ifs at integral with whole
    rw [if_pos whole, Option.some.inj integral]

def word : NonEmptyText := ⟨"planrace/1".toList, by decide⟩

def digest : DigestHex := ⟨List.replicate 64 '0', by decide⟩

def hotkey (c : Char) : EvidenceHotkey := ⟨List.replicate 48 c, by simp [lengthBetween]⟩

theorem five_nonneg : (0 : ℚ) ≤ 5 := by norm_num

theorem absent_nonneg : ∀ x ∈ (none : Option ℚ), 0 ≤ x := fun _ h => nomatch h

theorem absent_pos : ∀ x ∈ (none : Option ℚ), 0 < x := fun _ h => nomatch h

def fiveScore : ScoreEvidence ℚ where
  uid := 1
  minerHotkey := hotkey 'b'
  profile := word
  accepted := true
  correct := true
  score := 5
  failureCode := none
  resultHash := some digest
  referenceHash := some digest
  medianWarmMs := none
  setupMs := none
  planCost := some 7
  baselineRelativeSpeedup := none
  scoreNonneg := five_nonneg
  warmNonneg := absent_nonneg
  setupNonneg := absent_nonneg
  speedupPositive := absent_pos

theorem fiveScore_hashes : ∀ score ∈ [fiveScore], scoreHashesMatch ℚ .evidence1 word score := by
  intro score h
  obtain rfl := List.mem_singleton.mp h
  exact ⟨rfl, rfl⟩

/-- A manifest of a run with one score, whose containers are named by a list. -/
def numbered (keys : List NonEmptyText) (distinct : (keys.map Subtype.val).Nodup) :
    EvidenceManifest ℚ where
  schemaVersion := .evidence1
  environment := .localnet
  network := word
  netuid := 1
  runId := word
  epoch := 0
  gitCommit := ⟨List.replicate 40 '0', by decide⟩
  containerDigests := keys.map fun key => (key, digest)
  protocolVersion := word
  validatorHotkeys := [hotkey 'a']
  minerHotkeys := [hotkey 'b']
  taskCommitment := digest
  taskReveal := ⟨word, none, none, digest, true⟩
  requestDigests := []
  responseDigests := []
  authentication := ⟨0, 0, word, none⟩
  scores := [fiveScore]
  weightPlan := ⟨[], [], fun _ h => absurd h List.not_mem_nil, fun some => absurd rfl some⟩
  extrinsics := []
  readback := ⟨0, 0, []⟩
  timestamps := ⟨word, word⟩
  knownLimitations := []
  sourceArtifacts := []
  validatorSignature := ⟨hotkey 'a', digest, ⟨List.replicate 128 '0', by decide⟩⟩
  netuidPositive := Nat.one_pos
  containerNames := by
    rw [List.map_map]
    exact distinct
  validatorsUnique := ⟨List.cons_ne_nil _ _, List.nodup_singleton _⟩
  minersUnique := ⟨List.cons_ne_nil _ _, List.nodup_singleton _⟩
  scoreHashes := fiveScore_hashes

theorem safe_dumpList_constrained {accepts : Text → Bool} (xs : List (Constrained accepts)) :
    Safe rationals (dumpList dumpConstrained xs) :=
  safe_seq_iff.mpr (List.forall_mem_map.mpr fun _ _ => trivial)

theorem safe_dumpNat {n : Nat} (small : n < 2 ^ 53) : Safe rationals (dumpNat n) := small

theorem safe_numbered (keys : List NonEmptyText) (distinct : (keys.map Subtype.val).Nodup) :
    SafeNumbers rationals (numbered keys distinct) := by
  have zero : Safe rationals (dumpNat 0) := safe_dumpNat (by norm_num)
  have one : Safe rationals (dumpNat 1) := safe_dumpNat (by norm_num)
  have empty : Safe rationals (.seq .list []) := safe_seq_iff.mpr (List.forall_mem_nil _)
  have containers : Safe rationals (dumpContainers (keys.map fun key => (key, digest))) :=
    safe_dict_iff.mpr (List.forall_mem_map.mpr fun _ _ => trivial)
  have reveal : Safe rationals (dumpTaskReveal ⟨word, none, none, digest, true⟩) := by
    simp only [dumpTaskReveal, safe_dict_iff, List.forall_mem_cons]
    exact ⟨trivial, trivial, trivial, trivial, trivial, List.forall_mem_nil _⟩
  have authentication : Safe rationals (dumpAuthentication ⟨0, 0, word, none⟩) := by
    simp only [dumpAuthentication, safe_dict_iff, List.forall_mem_cons]
    exact ⟨zero, zero, trivial, trivial, List.forall_mem_nil _⟩
  have plan : Safe rationals (.dict [("uids".toList, .seq .list []),
      ("weights".toList, .seq .list [])]) := by
    simp only [safe_dict_iff, List.forall_mem_cons]
    exact ⟨empty, empty, List.forall_mem_nil _⟩
  have scores : Safe rationals (dumpList dumpScore [fiveScore]) := by
    refine safe_seq_iff.mpr (List.forall_mem_singleton.mpr ?_)
    simp only [dumpScore, safe_dict_iff, List.forall_mem_cons]
    have whole : Safe rationals (.float 5) := ⟨5, rfl, by norm_num⟩
    have cost : Safe rationals (dumpNat 7) := safe_dumpNat (by norm_num)
    exact ⟨one, trivial, trivial, trivial, trivial, whole, trivial, trivial, trivial, trivial, trivial,
      trivial, trivial, cost, trivial, List.forall_mem_nil _⟩
  have readback : Safe rationals (dumpReadback ⟨0, 0, []⟩) := by
    simp only [dumpReadback, safe_dict_iff, List.forall_mem_cons]
    exact ⟨zero, zero, empty, List.forall_mem_nil _⟩
  have timestamps : Safe rationals (dumpTimestamps ⟨word, word⟩) := by
    simp only [dumpTimestamps, safe_dict_iff, List.forall_mem_cons]
    exact ⟨trivial, trivial, List.forall_mem_nil _⟩
  have signature (x : ValidatorSignature) : Safe rationals (dumpSignature x) := by
    simp only [dumpSignature, safe_dict_iff, List.forall_mem_cons]
    exact ⟨trivial, trivial, trivial, trivial, List.forall_mem_nil _⟩
  rw [SafeNumbers, safe_dict_iff]
  simp only [modelDump, List.forall_mem_cons]
  exact ⟨trivial, trivial, trivial, one, trivial, zero, trivial, containers, trivial,
    safe_dumpList_constrained _, safe_dumpList_constrained _, trivial, reveal, empty, empty,
    authentication, scores, plan, empty, readback, timestamps, empty, empty, signature _,
    List.forall_mem_nil _⟩

def nine : NonEmptyText := ⟨"9".toList, by decide⟩

def ten : NonEmptyText := ⟨"10".toList, by decide⟩

theorem ten_nine_distinct : ([ten, nine].map Subtype.val).Nodup := by decide

theorem ten_nine_disagree : ¬ SameOrder ["10".toList, "9".toList] := by decide

/-- Containers named `10` and `9` are signed in one order and verified in the other. -/
theorem numbered_containers_disagree :
    ¬ ∀ m : EvidenceManifest ℚ, SafeNumbers rationals m →
      canonicalManifestBytes rationals m =
        dashboardManifestBytes rationals (parsedMembers rationals m) := by
  intro agree
  have safe := safe_numbered [ten, nine] ten_nine_distinct
  exact ten_nine_disagree ((bytes_eq_iff safe).mp (agree _ safe))

def worker : NonEmptyText := ⟨"worker".toList, by decide⟩

theorem worker_nine_distinct : ([worker, nine].map Subtype.val).Nodup := by decide

theorem worker_nine_agree : SameOrder ["worker".toList, "9".toList] := by decide

/-- With containers named `worker` and `9` the bytes are the same. -/
theorem canonicalManifestBytes_agree_iff_nine :
    canonicalManifestBytes rationals (numbered [worker, nine] worker_nine_distinct) =
      dashboardManifestBytes rationals
        (parsedMembers rationals (numbered [worker, nine] worker_nine_distinct)) :=
  (canonicalManifestBytes_agree_iff rationals _ (safe_numbered [worker, nine]
    worker_nine_distinct)).mpr worker_nine_agree

end Sample

end ManifestBytes
