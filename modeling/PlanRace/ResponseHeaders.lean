import PlanRace.Library.ByteStrings
import PlanRace.Library.Fallible

/-!
# Response headers are accepted exactly when they are unambiguous

One pass counts and collects what the checks after it read, so acceptance is a
property of the collected headers, whatever their order and the case of their names.
-/

namespace ResponseHeaders

open ByteStrings Fallible

section Bytes

def ascii (s : String) : Bytes := utf8 s.toList

def headerNameBytes : Bytes :=
  ascii "!#$%&'*+-.^_`|~0123456789abcdefghijklmnopqrstuvwxyzABCDEFGHIJKLMNOPQRSTUVWXYZ"

def lowerByte (b : UInt8) : UInt8 := if 65 ≤ b ∧ b ≤ 90 then b + 32 else b

/-- `data.lower()`. -/
def lower (data : Bytes) : Bytes := data.map lowerByte

def isSpaceByte (b : UInt8) : Bool := b = 32 ∨ (9 ≤ b ∧ b ≤ 13)

/-- `data.strip()`. -/
def strip (data : Bytes) : Bytes :=
  ((data.dropWhile isSpaceByte).reverse.dropWhile isSpaceByte).reverse

/-- `data.isdigit()`. -/
def isDigits (data : Bytes) : Bool :=
  data ≠ [] ∧ data.all (fun b => decide (48 ≤ b ∧ b ≤ 57)) = true

def isControlByte (b : UInt8) : Bool := (b < 32 ∧ b ≠ 9) ∨ b = 127

end Bytes

section Validation

abbrev Header := Bytes × Bytes

inductive HeadersError where
  | tooLarge
  | invalid
deriving DecidableEq

/-- The locals of the loop. -/
structure HeaderScan where
  total : Nat
  contentLengths : Nat
  contentTypes : List Bytes
  contentEncodings : List Bytes
  sawTransferEncoding : Bool
deriving DecidableEq

def contentLength : Bytes := ascii "content-length"

def transferEncoding : Bytes := ascii "transfer-encoding"

def contentType : Bytes := ascii "content-type"

def contentEncoding : Bytes := ascii "content-encoding"

def emptyScan : HeaderScan := ⟨2, 0, [], [], false⟩

/-- The branches on the lower-case name. -/
def record (scan : HeaderScan) (lowered value : Bytes) : HeaderScan :=
  if lowered = contentLength then { scan with contentLengths := scan.contentLengths + 1 }
  else if lowered = transferEncoding then { scan with sawTransferEncoding := true }
  else if lowered = contentType then { scan with contentTypes := scan.contentTypes ++ [value] }
  else if lowered = contentEncoding then
    { scan with contentEncodings := scan.contentEncodings ++ [lower (strip value)] }
  else scan

def scanHeader (maxResponseHeaderBytes : Int) (scan : HeaderScan) (header : Header) :
    Except HeadersError HeaderScan := do
  let total := scan.total + (header.1.length + 2 + header.2.length + 2)
  require ((total : Int) ≤ maxResponseHeaderBytes) .tooLarge
  require (header.1 ≠ [] ∧ header.1.any (fun b => decide (b ∉ headerNameBytes)) = false) .invalid
  require (header.2.any isControlByte = false) .invalid
  let lowered := lower header.1
  require (lowered = contentLength →
    ¬ scan.contentLengths + 1 > 1 ∧ isDigits header.2 = true) .invalid
  return record { scan with total := total } lowered header.2

/-- `value.split(b";", 1)[0].strip().lower()`. -/
def mediaType (value : Bytes) : Bytes := lower (strip (value.takeWhile (· ≠ 59)))

def validateResponseHeaders (headers : List Header) (maxResponseHeaderBytes : Int)
    (requireJson : Bool) : Except HeadersError PUnit := do
  let scan ← headers.foldlM (scanHeader maxResponseHeaderBytes) emptyScan
  require (¬ (scan.contentLengths ≠ 0 ∧ scan.sawTransferEncoding = true)) .invalid
  require (scan.contentEncodings = [] ∨ scan.contentEncodings = [ascii "identity"]) .invalid
  require (requireJson = true → scan.contentTypes.length = 1) .invalid
  require (requireJson = true →
    scan.contentTypes.head?.map mediaType = some (ascii "application/json")) .invalid

end Validation

section Acceptance

/-- The values of a header. -/
def named (label : Bytes) (headers : List Header) : List Bytes :=
  (headers.filter fun header => lower header.1 = label).map Prod.snd

def size (headers : List Header) : Nat :=
  (headers.map fun header => header.1.length + header.2.length + 4).sum

structure WellFormed (header : Header) : Prop where
  nonempty : header.1 ≠ []
  token : ∀ b ∈ header.1, b ∈ headerNameBytes
  value : ∀ b ∈ header.2, (32 ≤ b ∨ b = 9) ∧ b ≠ 127

/-- Nothing is said twice, and nothing is said about framing in two ways. -/
structure Unambiguous (headers : List Header) (maxResponseHeaderBytes : Int)
    (requireJson : Bool) : Prop where
  small : ((2 + size headers : Nat) : Int) ≤ maxResponseHeaderBytes
  wellFormed : ∀ header ∈ headers, WellFormed header
  oneLength : (named contentLength headers).length ≤ 1
  digits : ∀ value ∈ named contentLength headers, value ≠ [] ∧ ∀ b ∈ value, 48 ≤ b ∧ b ≤ 57
  framed : named contentLength headers = [] ∨ named transferEncoding headers = []
  identity : named contentEncoding headers = [] ∨
    ∃ value, named contentEncoding headers = [value] ∧ lower (strip value) = ascii "identity"
  json : requireJson = true → ∃ value, named contentType headers = [value] ∧
    mediaType value = ascii "application/json"

theorem named_cons (label : Bytes) (header : Header) (rest : List Header) :
    named label (header :: rest) = named label [header] ++ named label rest := by
  simp only [named, ← List.map_append, ← List.filter_append, List.singleton_append]

theorem named_singleton (label : Bytes) (header : Header) :
    named label [header] = if lower header.1 = label then [header.2] else [] := by
  simp only [named, List.filter_cons, List.filter_nil, decide_eq_true_eq]
  split_ifs
  · rfl
  · rfl

theorem size_cons (header : Header) (rest : List Header) :
    size (header :: rest) = header.1.length + header.2.length + 4 + size rest :=
  List.sum_cons

/-- What the loop has collected. -/
def collect (scan : HeaderScan) (headers : List Header) : HeaderScan :=
  ⟨scan.total + size headers, scan.contentLengths + (named contentLength headers).length,
    scan.contentTypes ++ named contentType headers,
    scan.contentEncodings ++ (named contentEncoding headers).map (lower ∘ strip),
    scan.sawTransferEncoding || headers.any fun header => lower header.1 = transferEncoding⟩

theorem collect_cons (scan : HeaderScan) (header : Header) (rest : List Header) :
    collect scan (header :: rest) = collect (collect scan [header]) rest := by
  have one : size [header] = header.1.length + header.2.length + 4 := by
    rw [size_cons]
    rfl
  simp only [collect, named_cons _ header rest, size_cons header rest, one, List.length_append,
    List.map_append, List.append_assoc, Nat.add_assoc, List.any_cons, List.any_nil,
    Bool.or_false, Bool.or_assoc]

theorem ascii_ne {s t : String} (h : s.toList ≠ t.toList) : ascii s ≠ ascii t :=
  fun same => h (utf8_injective same)

theorem labels_distinct : contentLength ≠ transferEncoding ∧ contentLength ≠ contentType ∧
    contentLength ≠ contentEncoding ∧ transferEncoding ≠ contentType ∧
    transferEncoding ≠ contentEncoding ∧ contentType ≠ contentEncoding :=
  ⟨ascii_ne (by decide), ascii_ne (by decide), ascii_ne (by decide), ascii_ne (by decide),
    ascii_ne (by decide), ascii_ne (by decide)⟩

theorem record_eq (scan : HeaderScan) (header : Header) :
    record { scan with total := scan.total + (header.1.length + 2 + header.2.length + 2) }
      (lower header.1) header.2 = collect scan [header] := by
  obtain ⟨h₁, h₂, h₃, h₄, h₅, h₆⟩ := labels_distinct
  have one : size [header] = header.1.length + 2 + header.2.length + 2 := by
    rw [size_cons, size, List.map_nil, List.sum_nil]
    omega
  simp only [collect, named_singleton, one, record]
  by_cases length : lower header.1 = contentLength
  · simp [length, h₁, h₂, h₃]
  by_cases transfer : lower header.1 = transferEncoding
  · simp [transfer, h₁.symm, h₄, h₅]
  by_cases type : lower header.1 = contentType
  · simp [type, h₂.symm, h₄.symm, h₆]
  by_cases encoding : lower header.1 = contentEncoding
  · simp [encoding, h₃.symm, h₅.symm, h₆.symm]
  · simp [length, transfer, type, encoding]

theorem isControlByte_eq_false_iff {b : UInt8} :
    isControlByte b = false ↔ (32 ≤ b ∨ b = 9) ∧ b ≠ 127 := by
  rw [isControlByte, decide_eq_false_iff_not, not_or, not_and_or, UInt8.not_lt, not_not]

theorem isDigits_iff {data : Bytes} :
    isDigits data = true ↔ data ≠ [] ∧ ∀ b ∈ data, 48 ≤ b ∧ b ≤ 57 := by
  simp only [isDigits, decide_eq_true_eq, List.all_eq_true]

theorem no_controlByte_iff {data : Bytes} :
    data.any isControlByte = false ↔ ∀ b ∈ data, (32 ≤ b ∨ b = 9) ∧ b ≠ 127 := by
  rw [List.any_eq_false]
  exact forall₂_congr fun b _ => by rw [← isControlByte_eq_false_iff, Bool.not_eq_true]

theorem isToken_iff {data : Bytes} :
    data.any (fun b => decide (b ∉ headerNameBytes)) = false ↔ ∀ b ∈ data, b ∈ headerNameBytes := by
  simp only [List.any_eq_false, decide_eq_true_eq, not_not]

/-- What one header must fulfil for the loop to go on. -/
structure Admits (maxResponseHeaderBytes : Int) (scan : HeaderScan) (header : Header) : Prop where
  small : ((scan.total + (header.1.length + header.2.length + 4) : Nat) : Int) ≤
    maxResponseHeaderBytes
  wellFormed : WellFormed header
  length : lower header.1 = contentLength → scan.contentLengths = 0 ∧ isDigits header.2 = true

theorem scanHeader_ok_iff {limit : Int} {scan scan' : HeaderScan} {header : Header} :
    scanHeader limit scan header = .ok scan' ↔
      Admits limit scan header ∧ scan' = collect scan [header] := by
  have total : scan.total + (header.1.length + 2 + header.2.length + 2) =
      scan.total + (header.1.length + header.2.length + 4) := by omega
  constructor
  · intro h
    obtain ⟨_, small, h⟩ := bind_ok h
    obtain ⟨_, token, h⟩ := bind_ok h
    obtain ⟨_, value, h⟩ := bind_ok h
    obtain ⟨_, length, h⟩ := bind_ok h
    have token := require_ok_iff.mp token
    refine ⟨⟨total ▸ require_ok_iff.mp small, ⟨token.1, isToken_iff.mp token.2,
      no_controlByte_iff.mp (require_ok_iff.mp value)⟩, fun named => ?_⟩, ?_⟩
    · obtain ⟨first, digits⟩ := require_ok_iff.mp length named
      exact ⟨by omega, digits⟩
    · rw [← record_eq]
      exact (Except.ok.inj h).symm
  · rintro ⟨⟨small, ⟨nonempty, token, value⟩, length⟩, rfl⟩
    refine bind_ok_iff.mpr ⟨⟨⟩, require_ok_iff.mpr (total.symm ▸ small), bind_ok_iff.mpr ⟨⟨⟩,
      require_ok_iff.mpr ⟨nonempty, isToken_iff.mpr token⟩, bind_ok_iff.mpr ⟨⟨⟩,
      require_ok_iff.mpr (no_controlByte_iff.mpr value),
      bind_ok_iff.mpr ⟨⟨⟩, require_ok_iff.mpr fun named => ?_, ?_⟩⟩⟩⟩
    · obtain ⟨first, digits⟩ := length named
      exact ⟨by omega, digits⟩
    · rw [← record_eq]
      rfl

/-- What all headers must fulfil together. -/
structure AdmitsAll (maxResponseHeaderBytes : Int) (scan : HeaderScan) (headers : List Header) :
    Prop where
  small : headers ≠ [] → ((scan.total + size headers : Nat) : Int) ≤ maxResponseHeaderBytes
  wellFormed : ∀ header ∈ headers, WellFormed header
  oneLength : named contentLength headers ≠ [] →
    scan.contentLengths + (named contentLength headers).length ≤ 1
  digits : ∀ value ∈ named contentLength headers, isDigits value = true

theorem admitsAll_cons_iff {limit : Int} {scan : HeaderScan} {header : Header}
    {rest : List Header} : AdmitsAll limit scan (header :: rest) ↔
      Admits limit scan header ∧ AdmitsAll limit (collect scan [header]) rest := by
  have one : size [header] = header.1.length + header.2.length + 4 := by
    rw [size_cons]
    rfl
  have total : (collect scan [header]).total =
      scan.total + (header.1.length + header.2.length + 4) := congrArg (scan.total + ·) one
  have lengths : (collect scan [header]).contentLengths =
      scan.contentLengths + (named contentLength [header]).length := rfl
  constructor
  · rintro ⟨small, wellFormed, oneLength, digits⟩
    have small := small (List.cons_ne_nil header rest)
    rw [size_cons] at small
    rw [named_cons] at oneLength digits
    refine ⟨⟨by omega, wellFormed header List.mem_cons_self, fun he => ?_⟩, ⟨fun _ => ?_, fun h hh =>
      wellFormed h (List.mem_cons_of_mem _ hh), fun some => ?_, fun value hvalue =>
      digits value (List.mem_append_right _ hvalue)⟩⟩
    · rw [named_singleton, if_pos he] at oneLength digits
      have bound := oneLength (List.cons_ne_nil _ _)
      rw [List.length_append, List.length_singleton] at bound
      exact ⟨by omega, digits _ (List.mem_append_left _ (List.mem_singleton.mpr rfl))⟩
    · rw [total]
      omega
    · have bound := oneLength (List.append_ne_nil_of_right_ne_nil _ some)
      rw [List.length_append] at bound
      rw [lengths]
      omega
  · rintro ⟨⟨small, wellFormed, length⟩, ⟨small', wellFormed', oneLength, digits⟩⟩
    rw [total] at small'
    rw [lengths] at oneLength
    refine ⟨fun _ => ?_, List.forall_mem_cons.mpr ⟨wellFormed, wellFormed'⟩, fun someLength => ?_,
      fun value hvalue => ?_⟩
    · rw [size_cons]
      cases rest with
      | nil => exact small
      | cons next rest =>
        have bound := small' (List.cons_ne_nil next rest)
        omega
    · by_cases some : named contentLength rest = []
      · rw [named_cons, some, List.append_nil, named_singleton] at someLength ⊢
        split_ifs at someLength ⊢ with he
        · rw [(length he).1]
          exact le_rfl
        · exact absurd rfl someLength
      · have bound := oneLength some
        rw [named_cons, List.length_append]
        omega
    · rw [named_cons, List.mem_append, named_singleton] at hvalue
      rcases hvalue with hvalue | hvalue
      · split_ifs at hvalue with he
        · rw [List.mem_singleton.mp hvalue]
          exact (length he).2
        · cases hvalue
      · exact digits value hvalue

theorem scanHeaders_ok_iff {limit : Int} {scan scan' : HeaderScan} {headers : List Header} :
    headers.foldlM (scanHeader limit) scan = .ok scan' ↔
      AdmitsAll limit scan headers ∧ scan' = collect scan headers := by
  induction headers generalizing scan with
  | nil =>
    have same : collect scan [] = scan := by simp [collect, named, size]
    rw [same]
    constructor
    · intro h
      exact ⟨⟨fun some => absurd rfl some, fun _ hh => absurd hh List.not_mem_nil,
        fun some => absurd rfl some, fun _ hh => absurd hh List.not_mem_nil⟩, (Except.ok.inj h).symm⟩
    · rintro ⟨-, rfl⟩
      rfl
  | cons header rest ih =>
    rw [List.foldlM_cons, bind_ok_iff, admitsAll_cons_iff, collect_cons scan header rest]
    constructor
    · rintro ⟨next, first, others⟩
      obtain ⟨admits, rfl⟩ := scanHeader_ok_iff.mp first
      obtain ⟨admitsAll, rfl⟩ := ih.mp others
      exact ⟨⟨admits, admitsAll⟩, rfl⟩
    · rintro ⟨⟨admits, admitsAll⟩, rfl⟩
      exact ⟨_, scanHeader_ok_iff.mpr ⟨admits, rfl⟩, ih.mpr ⟨admitsAll, rfl⟩⟩

theorem any_named_iff {label : Bytes} {headers : List Header} :
    (headers.any fun header => lower header.1 = label) = true ↔ named label headers ≠ [] := by
  rw [List.any_eq_true, named, ne_eq, List.map_eq_nil_iff, List.filter_eq_nil_iff]
  push Not
  rfl

/-- The checks after the loop. -/
theorem validateResponseHeaders_ok_iff {headers : List Header} {limit : Int} {requireJson : Bool} :
    (∃ done, validateResponseHeaders headers limit requireJson = .ok done) ↔
      AdmitsAll limit emptyScan headers ∧
      (named contentLength headers = [] ∨ named transferEncoding headers = []) ∧
      ((named contentEncoding headers).map (lower ∘ strip) = [] ∨
        (named contentEncoding headers).map (lower ∘ strip) = [ascii "identity"]) ∧
      (requireJson = true → (named contentType headers).length = 1) ∧
      (requireJson = true → (named contentType headers).head?.map mediaType =
        some (ascii "application/json")) := by
  have framing : ¬((collect emptyScan headers).contentLengths ≠ 0 ∧
      (collect emptyScan headers).sawTransferEncoding = true) ↔
      (named contentLength headers = [] ∨ named transferEncoding headers = []) := by
    simp only [collect, emptyScan, Nat.zero_add, Bool.false_or, any_named_iff, not_and_or, not_not,
      ne_eq, List.length_eq_zero_iff]
  constructor
  · rintro ⟨done, h⟩
    obtain ⟨scan, scanned, h⟩ := bind_ok h
    obtain ⟨admitsAll, rfl⟩ := scanHeaders_ok_iff.mp scanned
    obtain ⟨_, framed, h⟩ := bind_ok h
    obtain ⟨_, identity, h⟩ := bind_ok h
    obtain ⟨_, one, json⟩ := bind_ok h
    exact ⟨admitsAll, framing.mp (require_ok_iff.mp framed), require_ok_iff.mp identity,
      require_ok_iff.mp one, require_ok_iff.mp json⟩
  · rintro ⟨admitsAll, framed, identity, one, json⟩
    exact ⟨⟨⟩, bind_ok_iff.mpr ⟨_, scanHeaders_ok_iff.mpr ⟨admitsAll, rfl⟩, bind_ok_iff.mpr ⟨⟨⟩,
      require_ok_iff.mpr (framing.mpr framed), bind_ok_iff.mpr ⟨⟨⟩, require_ok_iff.mpr identity,
      bind_ok_iff.mpr ⟨⟨⟩, require_ok_iff.mpr one, require_ok_iff.mpr json⟩⟩⟩⟩⟩

theorem accepted_iff {headers : List Header} (nonempty : headers ≠ []) {limit : Int}
    {requireJson : Bool} :
    (∃ done, validateResponseHeaders headers limit requireJson = .ok done) ↔
      Unambiguous headers limit requireJson := by
  rw [validateResponseHeaders_ok_iff]
  constructor
  · rintro ⟨⟨small, wellFormed, oneLength, digits⟩, framed, identity, one, json⟩
    refine ⟨small nonempty, wellFormed, ?_, fun value hvalue => isDigits_iff.mp (digits value hvalue),
      framed, ?_, fun required => ?_⟩
    · by_cases some : named contentLength headers = []
      · rw [some]
        exact Nat.zero_le 1
      · exact (Nat.le_add_left _ _).trans (oneLength some)
    · refine identity.imp List.map_eq_nil_iff.mp fun single => ?_
      obtain ⟨value, he, same⟩ := List.map_eq_singleton_iff.mp single
      exact ⟨value, he, same⟩
    · obtain ⟨value, he⟩ := List.length_eq_one_iff.mp (one required)
      have same := json required
      rw [he] at same
      exact ⟨value, he, Option.some.inj same⟩
  · rintro ⟨small, wellFormed, oneLength, digits, framed, identity, json⟩
    refine ⟨⟨fun _ => small, wellFormed, fun _ => ?_, fun value hvalue =>
      isDigits_iff.mpr (digits value hvalue)⟩, framed, ?_, fun required => ?_, fun required => ?_⟩
    · exact (Nat.zero_add _).trans_le oneLength
    · rcases identity with none | ⟨value, he, same⟩
      · exact .inl (by rw [none, List.map_nil])
      · exact .inr (by rw [he, List.map_cons, List.map_nil, Function.comp_apply, same])
    · obtain ⟨value, he, -⟩ := json required
      rw [he, List.length_singleton]
    · obtain ⟨value, he, same⟩ := json required
      rw [he, List.head?_cons, Option.map_some, same]

end Acceptance

section Variants

/-- The same headers up to their order and the case of their names. -/
def SameHeaders (headers others : List Header) : Prop :=
  (others.map fun header => (lower header.1, header.2)).Perm
    (headers.map fun header => (lower header.1, header.2))

variable {headers others : List Header}

theorem SameHeaders.symm (same : SameHeaders headers others) : SameHeaders others headers :=
  List.Perm.symm same

theorem SameHeaders.named_perm (same : SameHeaders headers others) (label : Bytes) :
    (named label others).Perm (named label headers) := by
  have lowered : ∀ headers, named label headers =
      ((headers.map fun header => (lower header.1, header.2)).filter
        fun header => header.1 = label).map Prod.snd := by
    intro headers
    rw [List.filter_map, List.map_map]
    rfl
  rw [lowered, lowered]
  exact (List.Perm.filter _ same).map Prod.snd

theorem SameHeaders.size_eq (same : SameHeaders headers others) : size others = size headers := by
  have lowered : ∀ headers, size headers =
      ((headers.map fun header => (lower header.1, header.2)).map fun header =>
        header.1.length + header.2.length + 4).sum := by
    intro headers
    rw [List.map_map, size]
    simp only [Function.comp_def, lower, List.length_map]
  rw [lowered, lowered]
  exact (List.Perm.map _ same).sum_nat

/-- A name is a token in either case. -/
theorem lowerByte_mem_iff (b : UInt8) : lowerByte b ∈ headerNameBytes ↔ b ∈ headerNameBytes := by
  have letters : ∀ n : Fin 26, UInt8.ofNat (65 + n) ∈ headerNameBytes ∧
      UInt8.ofNat (65 + n) + 32 ∈ headerNameBytes := by
    decide +kernel
  by_cases upper : 65 ≤ b ∧ b ≤ 90
  · have low : 65 ≤ b.toNat := UInt8.le_iff_toNat_le.mp upper.1
    have high : b.toNat ≤ 90 := UInt8.le_iff_toNat_le.mp upper.2
    have same : UInt8.ofNat (65 + (b.toNat - 65)) = b := by
      rw [Nat.add_sub_cancel' low, UInt8.ofNat_toNat]
    have both := letters ⟨b.toNat - 65, by omega⟩
    rw [same] at both
    rw [lowerByte, if_pos upper]
    exact iff_of_true both.2 both.1
  · rw [lowerByte, if_neg upper]

theorem SameHeaders.wellFormed (same : SameHeaders headers others)
    (h : ∀ header ∈ headers, WellFormed header) : ∀ header ∈ others, WellFormed header := by
  intro header hheader
  obtain ⟨source, hsource, he⟩ := List.mem_map.mp
    (List.Perm.mem_iff same |>.mp (List.mem_map_of_mem hheader))
  obtain ⟨name, value⟩ := Prod.mk.inj he
  have wellFormed := h source hsource
  refine ⟨fun none => ?_, fun b hb => ?_, value ▸ wellFormed.value⟩
  · rw [none] at name
    exact wellFormed.nonempty (List.map_eq_nil_iff.mp name)
  · have lowered : lowerByte b ∈ lower source.1 := name ▸ List.mem_map_of_mem hb
    obtain ⟨c, hc, hbc⟩ := List.mem_map.mp lowered
    rw [← lowerByte_mem_iff, ← hbc, lowerByte_mem_iff]
    exact wellFormed.token c hc

theorem SameHeaders.unambiguous (same : SameHeaders headers others) {limit : Int}
    {requireJson : Bool} (h : Unambiguous headers limit requireJson) :
    Unambiguous others limit requireJson := by
  have singleton : ∀ {label value}, named label headers = [value] →
      named label others = [value] := fun he =>
    List.perm_singleton.mp (he ▸ same.named_perm _)
  have empty : ∀ {label}, named label headers = [] → named label others = [] := fun he =>
    List.perm_nil.mp (he ▸ same.named_perm _)
  constructor
  · rw [same.size_eq]
    exact h.small
  · exact same.wellFormed h.wellFormed
  · rw [(same.named_perm _).length_eq]
    exact h.oneLength
  · intro value hvalue
    exact h.digits value ((same.named_perm _).mem_iff.mp hvalue)
  · exact h.framed.imp empty empty
  · exact h.identity.imp empty fun ⟨value, he, identity⟩ => ⟨value, singleton he, identity⟩
  · intro required
    obtain ⟨value, he, json⟩ := h.json required
    exact ⟨value, singleton he, json⟩

theorem SameHeaders.ne_nil (same : SameHeaders headers others) (nonempty : headers ≠ []) :
    others ≠ [] := by
  rintro rfl
  exact nonempty (List.map_eq_nil_iff.mp (List.nil_perm.mp same))

/-- Headers are accepted exactly when they are unambiguous, in every order and case. -/
theorem validateResponseHeaders_accepts_iff (nonempty : headers ≠ [])
    (maxResponseHeaderBytes : Int) (requireJson : Bool) :
    ((∃ done, validateResponseHeaders headers maxResponseHeaderBytes requireJson = .ok done) ↔
      Unambiguous headers maxResponseHeaderBytes requireJson) ∧
    ∀ others, SameHeaders headers others →
      ((∃ done, validateResponseHeaders others maxResponseHeaderBytes requireJson = .ok done) ↔
        ∃ done, validateResponseHeaders headers maxResponseHeaderBytes requireJson = .ok done) := by
  refine ⟨accepted_iff nonempty, fun others same => ?_⟩
  rw [accepted_iff nonempty, accepted_iff (same.ne_nil nonempty)]
  exact ⟨same.symm.unambiguous, same.unambiguous⟩

def jsonHeaders : List Header :=
  [(ascii "Content-Type", ascii "application/json; charset=utf-8"),
    (ascii "Content-Length", ascii "42")]

theorem validateResponseHeaders_accepts_json :
    ((∃ done, validateResponseHeaders jsonHeaders 256 true = .ok done) ↔
      Unambiguous jsonHeaders 256 true) ∧
    ∀ others, SameHeaders jsonHeaders others →
      ((∃ done, validateResponseHeaders others 256 true = .ok done) ↔
        ∃ done, validateResponseHeaders jsonHeaders 256 true = .ok done) :=
  validateResponseHeaders_accepts_iff (List.cons_ne_nil _ _) 256 true

example : validateResponseHeaders jsonHeaders 256 true = .ok ⟨⟩ := by decide +kernel

end Variants

end ResponseHeaders
