import PlanRace.BenchmarkV2
import PlanRace.FixtureDigest
import PlanRace.Library.Draws

/-!
# Generated fixtures are valid and match what is published

The generator draws customers, orders that refer to them and parameters. The
arithmetic of floats is left open, except that no operation turns what is not
negative into something negative.
-/

namespace FixtureGenerator

open JsonText ByteStrings CanonicalJson WireText LexOrder TaskModels SandboxV2 PythonObjects
  FixtureDigest Draws Fallible
open BenchmarkV2 hiding GeneratedFixture

section Records

structure FixtureProfile where
  fixtureId : Text
  customers : Int
  orders : Int
  paidBps : Int
  nullBps : Int
  duplicateBps : Int
  skewPowerMilli : Int
  correlationBps : Int
  legacyTestFamilyIndex : Nat

structure CustomerRow where
  id : Int
  segment : Text
  region : Text
  active : Int
  tier : Option Text
deriving DecidableEq

structure OrderPayload where
  customerId : Int
  amountCents : Int
  status : Text
  channel : Text
  createdDay : Int
  coupon : Option Text
deriving DecidableEq

structure OrderRow where
  id : Int
  payload : OrderPayload
deriving DecidableEq

structure GeneratedFixture where
  descriptor : HiddenFixtureDescriptor
  profile : FixtureProfile
  queryFamily : QueryFamily
  parameters : List ParameterValue
  customers : List CustomerRow
  orders : List OrderRow

variable {F : Type}

def optionCell : Option Text → LogicalCell F
  | none => .null
  | some s => .text s

def CustomerRow.cells (row : CustomerRow) : Row F :=
  [.integer row.id, .text row.segment, .text row.region, .integer row.active, optionCell row.tier]

def OrderRow.cells (row : OrderRow) : Row F :=
  [.integer row.id, .integer row.payload.customerId, .integer row.payload.amountCents,
    .text row.payload.status, .text row.payload.channel, .integer row.payload.createdDay,
    optionCell row.payload.coupon]

inductive GenerateError where
  | indexError
  | valueError
  | unknownQueryFamily
  | familyIdBounds
  | invalidDescriptor
  | logicalDigest (error : PythonObjects.Raised)
  | image (message : Text)
deriving DecidableEq

end Records

/-- Operations on floats, of which only the sign of the result is known. -/
structure FloatArithmetic (K : Type) [Zero K] [LE K] where
  /-- `n / d` at integers. -/
  ratio : Int → Int → K
  /-- `x ** y`. -/
  pow : K → K → K
  /-- `x * n`. -/
  scale : K → Int → K
  /-- `int(x)`. -/
  truncate : K → Int
  ratio_nonneg : ∀ n d, 0 ≤ n → 0 < d → 0 ≤ ratio n d
  pow_nonneg : ∀ x y, 0 ≤ x → 0 ≤ y → 0 ≤ pow x y
  scale_nonneg : ∀ x n, 0 ≤ x → 0 ≤ n → 0 ≤ scale x n
  truncate_nonneg : ∀ x, 0 ≤ x → 0 ≤ truncate x

section Generator

variable {K S : Type} [Zero K] [One K] [LE K] [LT K] (source : RandomSource K S)
  (floats : FloatArithmetic K)

def segments : List Text := ["enterprise".toList, "midmarket".toList, "small".toList]

def regions : List Text :=
  ["apac".toList, "emea".toList, "latam".toList, "north-america".toList]

def tiers : List (Option Text) :=
  [some "gold".toList, some "silver".toList, some "bronze".toList, none]

def statuses : List Text := ["pending".toList, "failed".toList, "refunded".toList]

def channels : List Text := ["api".toList, "mobile".toList, "partner".toList, "web".toList]

/-- `range(1, n + 1)`. -/
def oneTo (n : Int) : List Int := (List.range n.toNat).map fun i : Nat => (i : Int) + 1

/-- The body of the loop over the customers. -/
def drawCustomer (customerId : Int) : Draw S GenerateError CustomerRow := do
  let region ← pick source .indexError regions
  let shift ← randrange source 0 segments.length
  let segment ← liftM (index GenerateError.indexError segments
    ((customerId + shift) % segments.length))
  let active ← randrange source 0 10000
  let tier ← pick source .indexError tiers
  return ⟨customerId, segment, region, if active ≥ 1300 then 1 else 0, tier⟩

/-- `f"C{n:02d}"`, for `n` that is not negative. -/
def couponText (n : Int) : Text := 'C' :: (if n < 10 then '0' :: intText n else intText n)

/-- Heavy-tail integer cents, with exact boundaries at some orders. -/
def boundaryAmount (orderId drawn : Int) : Int :=
  if orderId % 997 = 0 then 5000000 else if orderId % 499 = 0 then 0 else drawn

/-- `min(bound, int((rng.random() ** exponent) * factor))`, above an offset. -/
def drawSkewed (bound offset : Int) (exponent : K) (factor : Int) : Draw S GenerateError Int := do
  let x ← random source
  return min bound (offset + floats.truncate (floats.scale (floats.pow x exponent) factor))

def drawChannel (profile : FixtureProfile) (region : Text) : Draw S GenerateError Text := do
  let correlated ← randrange source 0 10000
  if correlated < profile.correlationBps then do
    let i ← liftM (position GenerateError.valueError regions region)
    liftM (index GenerateError.indexError channels i)
  else pick source .indexError channels

def drawStatus (profile : FixtureProfile) : Draw S GenerateError Text := do
  let paid ← randrange source 0 10000
  if paid < profile.paidBps then return "paid".toList else choice source .indexError statuses

def drawCoupon (profile : FixtureProfile) : Draw S GenerateError (Option Text) := do
  let absent ← randrange source 0 10000
  if absent < profile.nullBps then return none
  else do
    let n ← randrange source 0 40
    return some (couponText n)

/-- The branch of the loop that draws an order of its own. -/
def drawPayload (profile : FixtureProfile) (customers : List CustomerRow) (orderId : Int) :
    Draw S GenerateError OrderPayload := do
  let customerId ← drawSkewed source floats profile.customers 1
    (floats.ratio profile.skewPowerMilli 1000) profile.customers
  let customer ← liftM (index GenerateError.indexError customers (customerId - 1))
  let channel ← drawChannel source profile customer.region
  let status ← drawStatus source profile
  let amount ← drawSkewed source floats 5000000 0 (floats.ratio 26 10) 5000001
  let createdDay ← randrange source 0 3651
  let coupon ← drawCoupon source profile
  return ⟨customerId, boundaryAmount orderId amount, status, channel, createdDay, coupon⟩

/-- The earlier payload, when the order is a duplicate. -/
def drawDuplicate (profile : FixtureProfile) :
    Option OrderPayload → Draw S GenerateError (Option OrderPayload)
  | none => return none
  | some previous => do
    let duplicate ← randrange source 0 10000
    return if duplicate < profile.duplicateBps then some previous else none

/-- The body of the loop over the orders. -/
def drawOrder (profile : FixtureProfile) (customers : List CustomerRow)
    (acc : List OrderRow × Option OrderPayload) (orderId : Int) :
    Draw S GenerateError (List OrderRow × Option OrderPayload) := do
  match ← drawDuplicate source profile acc.2 with
  | some payload => return (acc.1 ++ [⟨orderId, payload⟩], acc.2)
  | none => do
    let payload ← drawPayload source floats profile customers orderId
    return (acc.1 ++ [⟨orderId, payload⟩], some payload)

def parameterStatuses : List Text :=
  ["failed".toList, "paid".toList, "pending".toList, "refunded".toList]

/-- `sorted((a, b))` of two integers. -/
def sortedPair (a b : Int) : Int × Int := if a ≤ b then (a, b) else (b, a)

def parametersFor (familyId : Text) : Draw S GenerateError (List ParameterValue) :=
  if familyId = paidRevenueBySegment.familyId then do
    let first ← randrange source 0 3651
    let second ← randrange source 0 3651
    let active ← randrange source 0 2
    let status ← pick source .indexError parameterStatuses
    return [.boolean (active ≠ 0), .text status, .integer (sortedPair first second).1,
      .integer (sortedPair first second).2]
  else if familyId = customerOrderThreshold.familyId then do
    let amount ← randrange source 0 5000001
    let status ← pick source .indexError parameterStatuses
    let count ← randrange source 1 13
    return [.integer amount, .text status, .integer count]
  else if familyId = boundedRangeScan.familyId then do
    let first ← randrange source 0 5000001
    let second ← randrange source 0 5000001
    let status ← pick source .indexError parameterStatuses
    return [.text status, .integer (sortedPair first second).1,
      .integer (sortedPair first second).2]
  else if familyId = regionChannelAggregate.familyId then do
    let region ← pick source .indexError regions
    let channel ← pick source .indexError channels
    return [.text region, .text channel]
  else if familyId = nullableCoupon.familyId then do
    let day ← randrange source 0 3651
    return [.integer day]
  else if familyId = intentionalZeroResult.familyId then
    return [.text "nonexistent-status".toList, .integer 5000000]
  else throw .unknownQueryFamily

/-- The rows and the parameters, in the order of the draws. -/
def drawFixture (profile : FixtureProfile) (family : QueryFamily) :
    Draw S GenerateError (List CustomerRow × List OrderRow × List ParameterValue) := do
  let customers ← (oneTo profile.customers).mapM (drawCustomer source)
  let orders ← (oneTo profile.orders).foldlM (drawOrder source floats profile customers) ([], none)
  let parameters ← parametersFor source family.familyId
  return (customers, orders.1, parameters)

/-- `fixture_parameter_set_digest`. -/
def parameterSetDigest (familyId : Text) (parameters : List ParameterValue) :
    Except GenerateError Text := do
  require (familyId ≠ [] ∧ familyId.length ≤ 63) .familyIdBounds
  return digestText (utf8 parameterDomain ++ 0 :: canonicalJsonBytes
    (.obj [("family".toList, .str familyId),
      ("parameters".toList, .arr (parameters.map ParameterValue.json))]))

/-- `HiddenFixtureDescriptor(...)`, which checks its fields. -/
def makeDescriptor (fixtureId contentDigest databaseFileDigest parameterDigest : Text)
    (rowCount : Nat) : Except GenerateError HiddenFixtureDescriptor :=
  if h : isSafeIdentifier fixtureId = true ∧ isSha256Digest contentDigest = true ∧
      isSha256Digest databaseFileDigest = true ∧ isSha256Digest parameterDigest = true then
    .ok {
      fixtureId := ⟨fixtureId, h.1⟩
      contentDigest := ⟨contentDigest, h.2.1⟩
      databaseFileDigest := some ⟨databaseFileDigest, h.2.2.1⟩
      parameterSetDigest := ⟨parameterDigest, h.2.2.2⟩
      rowCount := rowCount }
  else .error .invalidDescriptor

variable {F : Type} (repr : FloatRepr F)
  (databaseBytes : List (Row F) → List (Row F) → Except Text Bytes)

/-- What follows the draws. `canonical_sqlite_database_bytes` enters as a function. -/
def describeFixture (profile : FixtureProfile) (family : QueryFamily)
    (customers : List CustomerRow) (orders : List OrderRow) (parameters : List ParameterValue) :
    Except GenerateError GeneratedFixture := do
  let customerCells := customers.map CustomerRow.cells
  let orderCells := orders.map OrderRow.cells
  let contentDigest ← (logicalFixtureContentDigest repr customerCells orderCells).mapError
    .logicalDigest
  let image ← (databaseBytes customerCells orderCells).mapError .image
  let parameterDigest ← parameterSetDigest family.familyId parameters
  let descriptor ← makeDescriptor profile.fixtureId contentDigest (digestText image)
    parameterDigest orders.length
  return ⟨descriptor, profile, family, parameters, customers, orders⟩

def generateFixture (seed : Bytes) (profile : FixtureProfile) (family : QueryFamily) :
    Except GenerateError GeneratedFixture := do
  let state := source.seeded (seed.foldl (fun n b => 256 * n + b.toNat) 0)
  let drawn ← drawFixture source floats profile family state
  describeFixture repr databaseBytes profile family drawn.1.1 drawn.1.2.1 drawn.1.2.2

end Generator

section Draws

variable {K S : Type} [Zero K] [One K] [LE K] [LT K] {source : RandomSource K S}
  {floats : FloatArithmetic K} {profile : FixtureProfile} {customers : List CustomerRow}

/-- What the schema and the order loop need of a customer. -/
structure ValidCustomer (customerId : Int) (row : CustomerRow) : Prop where
  id : row.id = customerId
  region : row.region ∈ regions
  active : row.active = 0 ∨ row.active = 1

structure ValidPayload (profile : FixtureProfile) (payload : OrderPayload) : Prop where
  customer : 1 ≤ payload.customerId ∧ payload.customerId ≤ profile.customers
  amount : 0 ≤ payload.amountCents ∧ payload.amountCents ≤ 5000000

theorem mem_oneTo_iff {n i : Int} : i ∈ oneTo n ↔ 1 ≤ i ∧ i ≤ n := by
  simp only [oneTo, List.mem_map, List.mem_range]
  constructor
  · rintro ⟨k, hk, rfl⟩
    omega
  · rintro ⟨low, high⟩
    exact ⟨(i - 1).toNat, by omega, by omega⟩

theorem length_oneTo (n : Int) : (oneTo n).length = n.toNat := by
  rw [oneTo, List.length_map, List.length_range]

theorem nodup_oneTo (n : Int) : (oneTo n).Nodup :=
  List.nodup_range.map fun i j h => by simpa using h

theorem ensures_drawCustomer (customerId : Int) :
    Ensures (drawCustomer source customerId) (ValidCustomer customerId) := by
  refine (ensures_pick source (List.cons_ne_nil _ _)).bind fun region hregion => ?_
  refine (ensures_randrange source (by decide)).bind fun shift _ => ?_
  have modulus : (0 : Int) < segments.length := by decide
  refine (ensures_index (Int.emod_nonneg _ modulus.ne') (Int.emod_lt_of_pos _ modulus)).bind
    fun segment _ => ?_
  refine (ensures_randrange source (by decide)).bind fun active _ => ?_
  refine (ensures_pick source (List.cons_ne_nil _ _)).bind fun tier _ => ?_
  refine ensures_pure ⟨rfl, hregion, ?_⟩
  by_cases h : active ≥ 1300
  · exact .inr (if_pos h)
  · exact .inl (if_neg h)

theorem ensures_drawSkewed {bound offset factor : Int} {exponent : K} (inside : offset ≤ bound)
    (hexponent : 0 ≤ exponent) (hfactor : 0 ≤ factor) :
    Ensures (drawSkewed source floats bound offset exponent factor)
      fun n => offset ≤ n ∧ n ≤ bound := by
  refine (ensures_random source).bind fun x hx => ensures_pure ?_
  have drawn := floats.truncate_nonneg _ (floats.scale_nonneg _ factor
    (floats.pow_nonneg x exponent hx.1 hexponent) hfactor)
  exact ⟨le_min inside (by omega), min_le_left _ _⟩

theorem ensures_drawChannel {region : Text} (known : region ∈ regions) :
    Ensures (drawChannel source profile region) (· ∈ channels) := by
  refine (ensures_randrange source (by decide)).bind fun correlated _ => ?_
  refine ensures_ite (fun _ => ?_) fun _ => ensures_pick source (List.cons_ne_nil _ _)
  obtain ⟨i, found, low, high⟩ : ∃ i, position GenerateError.valueError regions region = .ok i ∧
      0 ≤ i ∧ i < regions.length := position_of_mem known
  exact (ensures_lift found (P := (· = i)) rfl).bind fun j hj => ensures_index (hj ▸ low) (hj ▸ high)

theorem ensures_drawStatus : Ensures (drawStatus source profile) fun _ => True := by
  refine (ensures_randrange source (by decide)).bind fun paid _ => ?_
  refine ensures_ite (fun _ => ensures_pure trivial) fun _ => ?_
  exact (ensures_choice source (List.cons_ne_nil _ _)).imp fun _ _ => trivial

theorem ensures_drawCoupon : Ensures (drawCoupon source profile) fun _ => True := by
  refine (ensures_randrange source (by decide)).bind fun absent _ => ?_
  refine ensures_ite (fun _ => ensures_pure trivial) fun _ => ?_
  exact (ensures_randrange source (by decide)).bind fun _ _ => ensures_pure trivial

theorem boundaryAmount_bounds {orderId drawn : Int} (h : 0 ≤ drawn ∧ drawn ≤ 5000000) :
    0 ≤ boundaryAmount orderId drawn ∧ boundaryAmount orderId drawn ≤ 5000000 := by
  unfold boundaryAmount
  split_ifs
  · omega
  · omega
  · exact h

/-- A drawn customer number has a customer, whose region names a channel. -/
theorem ensures_drawPayload (rows : List.Forall₂ ValidCustomer (oneTo profile.customers) customers)
    (some : 1 ≤ profile.customers) (skew : 0 ≤ profile.skewPowerMilli) (orderId : Int) :
    Ensures (drawPayload source floats profile customers orderId) (ValidPayload profile) := by
  have count : (customers.length : Int) = profile.customers := by
    rw [← rows.length_eq, length_oneTo]
    omega
  have hregion : ∀ row ∈ customers, row.region ∈ regions := by
    intro row hrow
    obtain ⟨_, _, valid⟩ := exists_of_forall₂ rows hrow
    exact valid.region
  have power := floats.ratio_nonneg profile.skewPowerMilli 1000 skew (by decide)
  have heavy := floats.ratio_nonneg 26 10 (by decide) (by decide)
  refine (ensures_drawSkewed some power (by omega)).bind fun customerId hcustomer => ?_
  refine (ensures_index (by omega) (by omega)).bind fun customer hmem => ?_
  refine (ensures_drawChannel (hregion customer hmem)).bind fun channel _ => ?_
  refine ensures_drawStatus.bind fun status _ => ?_
  refine (ensures_drawSkewed (by decide) heavy (by decide)).bind fun amount hamount => ?_
  refine (ensures_randrange source (by decide)).bind fun day _ => ?_
  refine ensures_drawCoupon.bind fun coupon _ => ?_
  exact ensures_pure ⟨hcustomer, boundaryAmount_bounds hamount⟩

/-- The loop invariant of the orders. -/
structure OrdersSoFar (profile : FixtureProfile) (done : List Int)
    (acc : List OrderRow × Option OrderPayload) : Prop where
  keys : acc.1.map OrderRow.id = done
  rows : ∀ row ∈ acc.1, ValidPayload profile row.payload
  previous : ∀ payload, acc.2 = some payload → ValidPayload profile payload

theorem OrdersSoFar.append {done : List Int} {acc : List OrderRow × Option OrderPayload}
    (h : OrdersSoFar profile done acc) {payload : OrderPayload} (valid : ValidPayload profile payload)
    {next : Option OrderPayload} (previous : next = acc.2 ∨ next = some payload) (orderId : Int) :
    OrdersSoFar profile (done ++ [orderId]) (acc.1 ++ [⟨orderId, payload⟩], next) := by
  constructor
  · rw [List.map_append, h.keys]
    rfl
  · intro row hrow
    rcases List.mem_append.mp hrow with hrow | hrow
    · exact h.rows row hrow
    · obtain rfl := List.mem_singleton.mp hrow
      exact valid
  · rintro kept rfl
    rcases previous with same | fresh
    · exact h.previous kept same.symm
    · exact Option.some.inj fresh ▸ valid

theorem ensures_drawDuplicate (previous : Option OrderPayload) :
    Ensures (drawDuplicate source profile previous)
      fun copied => ∀ payload, copied = some payload → previous = some payload := by
  cases previous with
  | none => exact ensures_pure fun _ h => h
  | some previous =>
    refine (ensures_randrange source (by decide)).bind fun duplicate _ => ensures_pure ?_
    intro payload h
    by_cases copied : duplicate < profile.duplicateBps
    · rwa [if_pos copied] at h
    · rw [if_neg copied] at h
      cases h

theorem ensures_drawOrder (rows : List.Forall₂ ValidCustomer (oneTo profile.customers) customers)
    (some : 1 ≤ profile.customers) (skew : 0 ≤ profile.skewPowerMilli) {done : List Int}
    {acc : List OrderRow × Option OrderPayload} (h : OrdersSoFar profile done acc) (orderId : Int) :
    Ensures (drawOrder source floats profile customers acc orderId)
      (OrdersSoFar profile (done ++ [orderId])) := by
  refine (ensures_drawDuplicate acc.2).bind fun copied hcopied => ?_
  cases copied with
  | some payload =>
    exact ensures_pure (h.append (h.previous payload (hcopied payload rfl)) (.inl rfl) orderId)
  | none =>
    refine (ensures_drawPayload rows some skew orderId).bind fun payload valid => ?_
    exact ensures_pure (h.append valid (.inr rfl) orderId)

end Draws

section Published

def asEndpoint : ParameterValue → Option RangeEndpoint
  | .integer value => some (.integer value)
  | .text value => some (.text value)
  | .boolean value => some (.boolean value)
  | .null => none

/-- `a <= b`, of one type. -/
def endpointLe : RangeEndpoint → RangeEndpoint → Prop
  | .integer a, .integer b => a ≤ b
  | .text a, .text b => lexLe Char.toNat a b = true
  | .boolean a, .boolean b => a ≤ b
  | _, _ => False

/-- The value has the type of the range and lies within its inclusive bounds. -/
def Within (range : ParameterRange) (value : ParameterValue) : Prop :=
  ∃ x, asEndpoint value = some x ∧ x.valueType = range.valueType ∧ endpointLe range.minimum x ∧
    endpointLe x range.maximum

/-- Where a range is published as the low end of a pair, the next one is the high end and
the values are in order. -/
def OrderedPairs : List ParameterRange → List ParameterValue → Prop
  | low :: high :: ranges, a :: b :: values =>
    (low.distribution = .orderedUniformPairLow → high.distribution = .orderedUniformPairHigh ∧
      ∃ x y, a = .integer x ∧ b = .integer y ∧ x ≤ y) ∧
    OrderedPairs (high :: ranges) (b :: values)
  | [last], _ => last.distribution ≠ .orderedUniformPairLow
  | _, _ => True

structure MatchesPublished (ranges : List ParameterRange) (values : List ParameterValue) :
    Prop where
  within : List.Forall₂ Within ranges values
  ordered : OrderedPairs ranges values

theorem within_integer {name : Text} {safe : isSafeIdentifier name = true} {low high value : Int}
    {distribution : Distribution} {ordered : low ≤ high} (h : low ≤ value ∧ value < high + 1) :
    Within (integerRange name safe low high distribution ordered) (.integer value) :=
  ⟨_, rfl, rfl, h.1, Int.le_of_lt_add_one h.2⟩

theorem within_text {name : Text} {safe : isSafeIdentifier name = true} {low high value : Text}
    {ordered : lexLe Char.toNat low high = true}
    (h : lexLe Char.toNat low value = true ∧ lexLe Char.toNat value high = true) :
    Within (textRange name safe low high ordered) (.text value) :=
  ⟨_, rfl, rfl, h.1, h.2⟩

theorem within_active (value : Bool) : Within activeRange (.boolean value) :=
  ⟨_, rfl, rfl, Bool.false_le value, Bool.le_true value⟩

theorem parameterStatuses_within : ∀ status ∈ parameterStatuses, Within statusRange (.text status) :=
  fun status h => within_text ((show ∀ status ∈ parameterStatuses,
    lexLe Char.toNat "failed".toList status = true ∧
      lexLe Char.toNat status "refunded".toList = true by decide) status h)

theorem sortedPair_spec (a b : Int) : (sortedPair a b).1 ≤ (sortedPair a b).2 ∧
    ((sortedPair a b).1 = a ∧ (sortedPair a b).2 = b ∨
      (sortedPair a b).1 = b ∧ (sortedPair a b).2 = a) := by
  unfold sortedPair
  split_ifs with h
  · exact ⟨h, .inl ⟨rfl, rfl⟩⟩
  · exact ⟨by omega, .inr ⟨rfl, rfl⟩⟩

theorem sortedPair_within {a b high : Int} (ha : 0 ≤ a ∧ a < high) (hb : 0 ≤ b ∧ b < high) :
    (0 ≤ (sortedPair a b).1 ∧ (sortedPair a b).1 < high) ∧
      0 ≤ (sortedPair a b).2 ∧ (sortedPair a b).2 < high := by
  rcases (sortedPair_spec a b).2 with ⟨first, second⟩ | ⟨first, second⟩
  · rw [first, second]
    exact ⟨ha, hb⟩
  · rw [first, second]
    exact ⟨hb, ha⟩

variable {K S : Type} [Zero K] [One K] [LE K] [LT K] {source : RandomSource K S}

theorem ensures_parameters_paidRevenue :
    Ensures (parametersFor source paidRevenueBySegment.familyId)
      (MatchesPublished (publishedParameterRanges paidRevenueBySegment.familyId)) := by
  rw [parametersFor, if_pos rfl, publishedParameterRanges, if_pos rfl]
  refine (ensures_randrange source (by decide)).bind fun first hfirst => ?_
  refine (ensures_randrange source (by decide)).bind fun second hsecond => ?_
  refine (ensures_randrange source (by decide)).bind fun active _ => ?_
  refine (ensures_pick source (List.cons_ne_nil _ _)).bind fun status hstatus => ensures_pure ?_
  obtain ⟨low, high⟩ := sortedPair_within hfirst hsecond
  have ordered := (sortedPair_spec first second).1
  constructor
  · exact .cons (within_active _) (.cons (parameterStatuses_within status hstatus)
      (.cons (within_integer low) (.cons (within_integer high) .nil)))
  · refine ⟨nofun, nofun, fun _ => ⟨rfl, _, _, rfl, rfl, ordered⟩, nofun⟩

theorem ensures_parameters_customerOrder :
    Ensures (parametersFor source customerOrderThreshold.familyId)
      (MatchesPublished (publishedParameterRanges customerOrderThreshold.familyId)) := by
  rw [parametersFor, if_neg (by decide), if_pos rfl, publishedParameterRanges,
    if_neg (by decide), if_pos rfl]
  refine (ensures_randrange source (by decide)).bind fun amount hamount => ?_
  refine (ensures_pick source (List.cons_ne_nil _ _)).bind fun status hstatus => ?_
  refine (ensures_randrange source (by decide)).bind fun count hcount => ensures_pure ?_
  constructor
  · exact .cons (within_integer hamount) (.cons (parameterStatuses_within status hstatus)
      (.cons (within_integer hcount) .nil))
  · exact ⟨nofun, nofun, nofun⟩

theorem ensures_parameters_boundedRange :
    Ensures (parametersFor source boundedRangeScan.familyId)
      (MatchesPublished (publishedParameterRanges boundedRangeScan.familyId)) := by
  rw [parametersFor, if_neg (by decide), if_neg (by decide), if_pos rfl, publishedParameterRanges,
    if_neg (by decide), if_neg (by decide), if_pos rfl]
  refine (ensures_randrange source (by decide)).bind fun first hfirst => ?_
  refine (ensures_randrange source (by decide)).bind fun second hsecond => ?_
  refine (ensures_pick source (List.cons_ne_nil _ _)).bind fun status hstatus => ensures_pure ?_
  obtain ⟨low, high⟩ := sortedPair_within hfirst hsecond
  have ordered := (sortedPair_spec first second).1
  constructor
  · exact .cons (parameterStatuses_within status hstatus)
      (.cons (within_integer low) (.cons (within_integer high) .nil))
  · exact ⟨nofun, fun _ => ⟨rfl, _, _, rfl, rfl, ordered⟩, nofun⟩

theorem regions_within : ∀ region ∈ regions, lexLe Char.toNat "apac".toList region = true ∧
    lexLe Char.toNat region "north-america".toList = true := by decide

theorem channels_within : ∀ channel ∈ channels, lexLe Char.toNat "api".toList channel = true ∧
    lexLe Char.toNat channel "web".toList = true := by decide

theorem ensures_parameters_regionChannel :
    Ensures (parametersFor source regionChannelAggregate.familyId)
      (MatchesPublished (publishedParameterRanges regionChannelAggregate.familyId)) := by
  rw [parametersFor, if_neg (by decide), if_neg (by decide), if_neg (by decide), if_pos rfl,
    publishedParameterRanges, if_neg (by decide), if_neg (by decide), if_neg (by decide),
    if_pos rfl]
  refine (ensures_pick source (List.cons_ne_nil _ _)).bind fun region hregion => ?_
  refine (ensures_pick source (List.cons_ne_nil _ _)).bind fun channel hchannel =>
    ensures_pure ?_
  constructor
  · exact .cons (within_text (regions_within region hregion))
      (.cons (within_text (channels_within channel hchannel)) .nil)
  · exact ⟨nofun, nofun⟩

theorem ensures_parameters_nullableCoupon :
    Ensures (parametersFor source nullableCoupon.familyId)
      (MatchesPublished (publishedParameterRanges nullableCoupon.familyId)) := by
  rw [parametersFor, if_neg (by decide), if_neg (by decide), if_neg (by decide),
    if_neg (by decide), if_pos rfl, publishedParameterRanges, if_neg (by decide),
    if_neg (by decide), if_neg (by decide), if_neg (by decide), if_pos rfl]
  refine (ensures_randrange source (by decide)).bind fun day hday => ensures_pure ?_
  exact ⟨.cons (within_integer hday) .nil, nofun⟩

theorem ensures_parameters_zeroResult :
    Ensures (parametersFor source intentionalZeroResult.familyId)
      (MatchesPublished (publishedParameterRanges intentionalZeroResult.familyId)) := by
  rw [parametersFor, if_neg (by decide), if_neg (by decide), if_neg (by decide),
    if_neg (by decide), if_neg (by decide), if_pos rfl, publishedParameterRanges,
    if_neg (by decide), if_neg (by decide), if_neg (by decide), if_neg (by decide),
    if_neg (by decide)]
  refine ensures_pure ⟨.cons (within_text ⟨?_, ?_⟩) (.cons (within_integer ?_) .nil), nofun, nofun⟩
  · decide
  · decide
  · omega

/-- The two tables of the families agree. -/
theorem ensures_parametersFor {family : QueryFamily} (known : family ∈ queryFamilies) :
    Ensures (parametersFor source family.familyId)
      (MatchesPublished (publishedParameterRanges family.familyId)) := by
  simp only [queryFamilies, List.mem_cons, List.not_mem_nil, or_false] at known
  rcases known with rfl | rfl | rfl | rfl | rfl | rfl
  · exact ensures_parameters_paidRevenue
  · exact ensures_parameters_customerOrder
  · exact ensures_parameters_boundedRange
  · exact ensures_parameters_regionChannel
  · exact ensures_parameters_nullableCoupon
  · exact ensures_parameters_zeroResult

end Published

section Fixtures

variable {K S F : Type} [Zero K] [One K] [LE K] [LT K] {source : RandomSource K S}
  {floats : FloatArithmetic K} {profile : FixtureProfile} {family : QueryFamily}

/-- What the tables demand of the rows. The last column of both may be `NULL`. -/
structure SatisfiesSchema (customers : List CustomerRow) (orders : List OrderRow) : Prop where
  customerKeys : customers.map CustomerRow.id = oneTo customers.length
  orderKeys : orders.map OrderRow.id = oneTo orders.length
  distinct : (customers.map CustomerRow.id).Nodup ∧ (orders.map OrderRow.id).Nodup
  active : ∀ row ∈ customers, row.active = 0 ∨ row.active = 1
  amounts : ∀ row ∈ orders, 0 ≤ row.payload.amountCents ∧ row.payload.amountCents ≤ 5000000
  customersPresent : ∀ row ∈ customers, ∀ cell ∈ row.cells.dropLast, cell ≠ (.null : LogicalCell F)
  ordersPresent : ∀ row ∈ orders, ∀ cell ∈ row.cells.dropLast, cell ≠ (.null : LogicalCell F)
  references : ∀ row ∈ orders, ∃ customer ∈ customers, customer.id = row.payload.customerId

/-- What is drawn for a profile and a family. -/
structure Drawn (F : Type) (profile : FixtureProfile) (family : QueryFamily)
    (drawn : List CustomerRow × List OrderRow × List ParameterValue) : Prop where
  schema : SatisfiesSchema (F := F) drawn.1 drawn.2.1
  customers : (drawn.1.length : Int) = profile.customers
  orders : (drawn.2.1.length : Int) = profile.orders
  parameters : MatchesPublished (publishedParameterRanges family.familyId) drawn.2.2

theorem customers_present (row : CustomerRow) :
    ∀ cell ∈ row.cells.dropLast, cell ≠ (.null : LogicalCell F) := by
  simp [CustomerRow.cells]

theorem orders_present (row : OrderRow) :
    ∀ cell ∈ row.cells.dropLast, cell ≠ (.null : LogicalCell F) := by
  simp [OrderRow.cells]

theorem oneTo_toNat (n : Int) : oneTo (n.toNat : Int) = oneTo n := by
  rw [oneTo, oneTo, Int.toNat_natCast]

theorem customerIds_of_rows {customers : List CustomerRow}
    (rows : List.Forall₂ ValidCustomer (oneTo profile.customers) customers) :
    customers.map CustomerRow.id = oneTo profile.customers := by
  have same := map_eq_map_of_forall₂ (f := id) (g := CustomerRow.id) rows
    fun _ _ valid => valid.id.symm
  rw [← same, List.map_id]

theorem satisfiesSchema_of_rows {customers : List CustomerRow} {orders : List OrderRow}
    {previous : Option OrderPayload}
    (rows : List.Forall₂ ValidCustomer (oneTo profile.customers) customers)
    (loop : OrdersSoFar profile (oneTo profile.orders) (orders, previous)) :
    SatisfiesSchema (F := F) customers orders := by
  have customerIds := customerIds_of_rows rows
  have count : customers.length = profile.customers.toNat := by
    rw [← rows.length_eq, length_oneTo]
  have orderCount : orders.length = profile.orders.toNat := by
    rw [← List.length_map (f := OrderRow.id), loop.keys, length_oneTo]
  constructor
  · rw [customerIds, count, oneTo_toNat]
  · rw [loop.keys, orderCount, oneTo_toNat]
  · rw [customerIds, loop.keys]
    exact ⟨nodup_oneTo _, nodup_oneTo _⟩
  · intro row hrow
    obtain ⟨_, _, valid⟩ := exists_of_forall₂ rows hrow
    exact valid.active
  · exact fun row hrow => (loop.rows row hrow).amount
  · exact fun row _ => customers_present row
  · exact fun row _ => orders_present row
  · intro row hrow
    have inside := mem_oneTo_iff.mpr (loop.rows row hrow).customer
    rw [← customerIds] at inside
    exact List.mem_map.mp inside

/-- No draw fails, whatever the source hands out. -/
theorem ensures_drawFixture (known : family ∈ queryFamilies) (some : 1 ≤ profile.customers)
    (nonnegative : 0 ≤ profile.orders) (skew : 0 ≤ profile.skewPowerMilli) :
    Ensures (drawFixture source floats profile family) (Drawn F profile family) := by
  refine (ensures_mapM fun id _ => ensures_drawCustomer id).bind fun customers rows => ?_
  have start : OrdersSoFar profile [] ([], none) :=
    ⟨rfl, fun _ h => absurd h List.not_mem_nil, fun _ h => nomatch h⟩
  have step : ∀ done id acc, id ∈ oneTo profile.orders → OrdersSoFar profile done acc →
      Ensures (drawOrder source floats profile customers acc id)
        (OrdersSoFar profile (done ++ [id])) :=
    fun _ id _ _ h => ensures_drawOrder rows some skew h id
  refine (ensures_foldlM step start).bind fun orders loop => ?_
  refine (ensures_parametersFor known).bind fun parameters matched => ensures_pure ?_
  have count : customers.length = profile.customers.toNat := by
    rw [← rows.length_eq, length_oneTo]
  have orderCount : orders.1.length = profile.orders.toNat := by
    rw [← List.length_map (f := OrderRow.id), loop.keys, length_oneTo]
  have customersDrawn : (customers.length : Int) = profile.customers := by omega
  have ordersDrawn : (orders.1.length : Int) = profile.orders := by omega
  exact ⟨satisfiesSchema_of_rows rows loop, customersDrawn, ordersDrawn, matched⟩

section Description

variable {repr : FloatRepr F} {databaseBytes : List (Row F) → List (Row F) → Except Text Bytes}
  {customers : List CustomerRow} {orders : List OrderRow} {parameters : List ParameterValue}

theorem fits_of_digest {customerCells orderCells : List (Row F)} {digest : Text}
    (h : logicalFixtureContentDigest repr customerCells orderCells = .ok digest) :
    Fits repr customerCells orderCells := by
  obtain ⟨updates, hupdates, _⟩ := bind_ok h
  intro row hrow
  obtain ⟨_, _, updated⟩ := ok_of_mapM hupdates row hrow
  by_contra long
  rw [updateRow, if_neg long] at updated
  cases updated

theorem parameterSetDigest_ok (known : family ∈ queryFamilies) :
    ∃ digest, parameterSetDigest family.familyId parameters = .ok digest ∧
      isSha256Digest digest = true := by
  have bounds : ∀ family ∈ queryFamilies, family.familyId ≠ [] ∧ family.familyId.length ≤ 63 := by
    simp only [queryFamilies, List.forall_mem_cons]
    refine ⟨by decide, by decide, by decide, by decide, by decide, by decide, nofun⟩
  exact ⟨_, bind_ok_iff.mpr ⟨⟨⟩, require_ok_iff.mpr (bounds family known), rfl⟩,
    isSha256Digest_digestText _⟩

theorem makeDescriptor_rowCount {fixtureId content database parameter : Text} {rowCount : Nat}
    {descriptor : HiddenFixtureDescriptor}
    (h : makeDescriptor fixtureId content database parameter rowCount = .ok descriptor) :
    isSafeIdentifier fixtureId = true ∧ descriptor.rowCount = rowCount := by
  rw [makeDescriptor] at h
  split_ifs at h with valid
  obtain rfl := Except.ok.inj h
  exact ⟨valid.1, rfl⟩

/-- What the fixture records of the draws. -/
structure Records (fixture : GeneratedFixture) (profile : FixtureProfile) (family : QueryFamily)
    (customers : List CustomerRow) (orders : List OrderRow) (parameters : List ParameterValue) :
    Prop where
  rowCount : fixture.descriptor.rowCount = orders.length
  profile : fixture.profile = profile
  family : fixture.queryFamily = family
  customers : fixture.customers = customers
  orders : fixture.orders = orders
  parameters : fixture.parameters = parameters

theorem records_of_describe {fixture : GeneratedFixture}
    (h : describeFixture repr databaseBytes profile family customers orders parameters =
      .ok fixture) :
    Records fixture profile family customers orders parameters := by
  obtain ⟨_, _, h⟩ := bind_ok h
  obtain ⟨_, _, h⟩ := bind_ok h
  obtain ⟨_, _, h⟩ := bind_ok h
  obtain ⟨descriptor, made, h⟩ := bind_ok h
  obtain rfl := Except.ok.inj h
  exact ⟨(makeDescriptor_rowCount made).2, rfl, rfl, rfl, rfl, rfl⟩

/-- The steps after the draws fail only for an id, a row length or an image. -/
theorem describes_iff (known : family ∈ queryFamilies) :
    (∃ fixture, describeFixture repr databaseBytes profile family customers orders parameters =
        .ok fixture) ↔
      isSafeIdentifier profile.fixtureId = true ∧
        Fits repr (customers.map CustomerRow.cells) (orders.map OrderRow.cells) ∧
        ∃ image, databaseBytes (customers.map CustomerRow.cells) (orders.map OrderRow.cells) =
          .ok image := by
  constructor
  · rintro ⟨fixture, h⟩
    obtain ⟨_, digest, h⟩ := bind_ok h
    obtain ⟨image, himage, h⟩ := bind_ok h
    obtain ⟨_, _, h⟩ := bind_ok h
    obtain ⟨descriptor, made, h⟩ := bind_ok h
    exact ⟨(makeDescriptor_rowCount made).1, fits_of_digest (mapError_ok_iff.mp digest), image,
      mapError_ok_iff.mp himage⟩
  · rintro ⟨safe, fits, image, himage⟩
    obtain ⟨parameter, hparameter, parameterDigest⟩ : ∃ digest,
        parameterSetDigest family.familyId parameters = .ok digest ∧
          isSha256Digest digest = true := parameterSetDigest_ok known
    have valid : isSafeIdentifier profile.fixtureId = true ∧
        isSha256Digest (digestText (fixtureInput repr (customers.map CustomerRow.cells)
          (orders.map OrderRow.cells))) = true ∧
        isSha256Digest (digestText image) = true ∧ isSha256Digest parameter = true :=
      ⟨safe, isSha256Digest_digestText _, isSha256Digest_digestText _, parameterDigest⟩
    have content := mapError_ok_iff (f := GenerateError.logicalDigest) |>.mpr
      (logicalFixtureContentDigest_eq fits)
    have imaged := mapError_ok_iff (f := GenerateError.image) |>.mpr himage
    exact ⟨_, bind_ok_iff.mpr ⟨_, content, bind_ok_iff.mpr ⟨_, imaged, bind_ok_iff.mpr
      ⟨_, hparameter, bind_ok_iff.mpr ⟨_, dif_pos valid, rfl⟩⟩⟩⟩⟩

/-- For every source, seed and profile, the rows and parameters are drawn without an error,
satisfy the schema and match what is published. The fixture holds them. -/
theorem generateFixture_valid (source : RandomSource K S) (floats : FloatArithmetic K)
    (repr : FloatRepr F) (databaseBytes : List (Row F) → List (Row F) → Except Text Bytes)
    (seed : Bytes) (known : family ∈ queryFamilies) (some : 1 ≤ profile.customers)
    (nonnegative : 0 ≤ profile.orders) (skew : 0 ≤ profile.skewPowerMilli) :
    ∃ customers orders parameters,
      Drawn F profile family (customers, orders, parameters) ∧
      generateFixture source floats repr databaseBytes seed profile family =
        describeFixture repr databaseBytes profile family customers orders parameters ∧
      (∀ fixture, generateFixture source floats repr databaseBytes seed profile family =
        .ok fixture → Records fixture profile family customers orders parameters) ∧
      ((∃ fixture, generateFixture source floats repr databaseBytes seed profile family =
          .ok fixture) ↔
        isSafeIdentifier profile.fixtureId = true ∧
          Fits repr (customers.map CustomerRow.cells) (orders.map OrderRow.cells) ∧
          ∃ image, databaseBytes (customers.map CustomerRow.cells) (orders.map OrderRow.cells) =
            .ok image) := by
  have draws : Ensures (drawFixture source floats profile family) (Drawn F profile family) :=
    ensures_drawFixture known some nonnegative skew
  obtain ⟨⟨customers, orders, parameters⟩, state, drawn, valid⟩ :=
    draws (source.seeded (seed.foldl (fun n b => 256 * n + b.toNat) 0))
  have described : generateFixture source floats repr databaseBytes seed profile family =
      describeFixture repr databaseBytes profile family customers orders parameters := by
    rw [generateFixture, drawn]
    rfl
  refine ⟨customers, orders, parameters, valid, described, ?_, ?_⟩
  · intro fixture h
    exact records_of_describe (described.symm.trans h)
  · rw [described]
    exact describes_iff known

end Description

end Fixtures

section Sample

/-- A source that hands out a half and counts through the ranges. -/
noncomputable def counter : RandomSource ℝ Nat where
  seeded seed := seed
  random s := (1 / 2, s + 1)
  randrange start stop s := (if start < stop then start + s % (stop - start) else start, s + 1)
  choice n s := (s % n, s + 1)
  random_mem _ := by constructor <;> norm_num
  randrange_mem start stop s some := by
    have positive : 0 < stop - start := by omega
    have low := Int.emod_nonneg (s : Int) positive.ne'
    have high := Int.emod_lt_of_pos (s : Int) positive
    rw [if_pos some]
    constructor
    · omega
    · omega
  choice_lt n s some := Nat.mod_lt s some

/-- Floats in exact arithmetic. -/
noncomputable def exact : FloatArithmetic ℝ where
  ratio n d := n / d
  pow x y := x ^ y
  scale x n := x * n
  truncate x := if 0 ≤ x then ⌊x⌋ else ⌈x⌉
  ratio_nonneg n d hn hd := div_nonneg (Int.cast_nonneg hn) (Int.cast_nonneg hd.le)
  pow_nonneg x y hx _ := Real.rpow_nonneg hx y
  scale_nonneg x n hx hn := mul_nonneg hx (Int.cast_nonneg hn)
  truncate_nonneg x hx := by
    rw [if_pos hx]
    exact Int.floor_nonneg.mpr hx

def smallProfile : FixtureProfile :=
  ⟨"holdout_01_small".toList, 80, 420, 5000, 1000, 0, 1000, 1000, 0⟩

/-- An image that shows only its magic string. -/
def magicImage : List (Row Int) → List (Row Int) → Except Text Bytes := fun _ _ =>
  .ok (utf8 "SQLite format 3".toList)

theorem generateFixture_valid_small :
    ∃ customers orders parameters,
      Drawn Int smallProfile boundedRangeScan (customers, orders, parameters) ∧
      generateFixture counter exact wholeFloats magicImage [1] smallProfile boundedRangeScan =
        describeFixture wholeFloats magicImage smallProfile boundedRangeScan customers orders
          parameters ∧
      (∀ fixture, generateFixture counter exact wholeFloats magicImage [1] smallProfile
        boundedRangeScan = .ok fixture →
          Records fixture smallProfile boundedRangeScan customers orders parameters) ∧
      ((∃ fixture, generateFixture counter exact wholeFloats magicImage [1] smallProfile
          boundedRangeScan = .ok fixture) ↔
        isSafeIdentifier smallProfile.fixtureId = true ∧
          Fits wholeFloats (customers.map CustomerRow.cells) (orders.map OrderRow.cells) ∧
          ∃ image, magicImage (customers.map CustomerRow.cells) (orders.map OrderRow.cells) =
            .ok image) :=
  generateFixture_valid counter exact wholeFloats magicImage [1]
    (List.mem_cons_of_mem _ (List.mem_cons_of_mem _ List.mem_cons_self)) (by decide) (by decide)
    (by decide)

end Sample

end FixtureGenerator
