import PlanRace.SandboxV2

/-!
# The benchmark families

The query families, the schema and the published parameter ranges of the v2
benchmark. Fixtures are expanded from seeds by Python's Mersenne Twister into
SQLite images, so the generator itself enters as a function.
-/

namespace BenchmarkV2

open JsonText ByteStrings WireText TaskModels SandboxV2 UniqueReadability

/-- Joined by line breaks, as in a triple-quoted literal. -/
def lines (parts : List Text) : Text := joinWith ['\n'] parts

def schemaV2 : Text := lines [
  "CREATE TABLE customers (".toList,
  "    id INTEGER PRIMARY KEY,".toList,
  "    segment TEXT NOT NULL,".toList,
  "    region TEXT NOT NULL,".toList,
  "    active INTEGER NOT NULL CHECK(active IN (0, 1)),".toList,
  "    tier TEXT".toList,
  ");".toList,
  "CREATE TABLE orders (".toList,
  "    id INTEGER PRIMARY KEY,".toList,
  "    customer_id INTEGER NOT NULL,".toList,
  "    amount_cents INTEGER NOT NULL CHECK(amount_cents >= 0),".toList,
  "    status TEXT NOT NULL,".toList,
  "    channel TEXT NOT NULL,".toList,
  "    created_day INTEGER NOT NULL,".toList,
  "    coupon_code TEXT,".toList,
  "    FOREIGN KEY(customer_id) REFERENCES customers(id)".toList,
  ");".toList]

def publicTrainingSeedHex : Text :=
  "8e1c133978678672f5e31183dd86ef90f6061a59d9f82a643b708629f5adce1b".toList

structure QueryFamily where
  familyId : Text
  sql : Text
  parameterKinds : List ValueType
  ordered : Bool

def paidRevenueBySegment : QueryFamily where
  familyId := "paid-revenue-by-segment".toList
  sql := lines [
    "SELECT c.segment, SUM(o.amount_cents) AS revenue_cents, COUNT(*) AS order_count".toList,
    "        FROM customers AS c JOIN orders AS o ON o.customer_id = c.id".toList,
    "        WHERE c.active = ? AND o.status = ? AND o.created_day BETWEEN ? AND ?".toList,
    "        GROUP BY c.segment ORDER BY c.segment".toList]
  parameterKinds := [.boolean, .text, .integer, .integer]
  ordered := true

def customerOrderThreshold : QueryFamily where
  familyId := "customer-order-threshold".toList
  sql := lines [
    "SELECT c.id, COUNT(o.id) AS orders, SUM(o.amount_cents) AS spend_cents".toList,
    "        FROM customers AS c JOIN orders AS o ON o.customer_id = c.id".toList,
    "        WHERE o.amount_cents >= ? AND o.status = ?".toList,
    "        GROUP BY c.id HAVING COUNT(o.id) >= ? ORDER BY spend_cents DESC, c.id".toList]
  parameterKinds := [.integer, .text, .integer]
  ordered := true

def boundedRangeScan : QueryFamily where
  familyId := "bounded-range-scan".toList
  sql := lines [
    "SELECT id, customer_id, amount_cents".toList,
    "        FROM orders".toList,
    "        WHERE status = ? AND amount_cents BETWEEN ? AND ?".toList,
    "        ORDER BY amount_cents, id".toList]
  parameterKinds := [.text, .integer, .integer]
  ordered := true

def regionChannelAggregate : QueryFamily where
  familyId := "region-channel-aggregate".toList
  sql := lines [
    "SELECT c.region, o.channel, COUNT(*) AS orders, SUM(o.amount_cents) AS cents".toList,
    "        FROM customers AS c JOIN orders AS o ON o.customer_id = c.id".toList,
    "        WHERE c.region = ? AND o.channel = ?".toList,
    "        GROUP BY c.region, o.channel ORDER BY c.region, o.channel".toList]
  parameterKinds := [.text, .text]
  ordered := true

def nullableCoupon : QueryFamily where
  familyId := "nullable-coupon".toList
  sql := lines [
    "SELECT status, COUNT(*) AS orders, SUM(amount_cents) AS cents".toList,
    "        FROM orders".toList,
    "        WHERE coupon_code IS NULL AND created_day >= ?".toList,
    "        GROUP BY status ORDER BY status".toList]
  parameterKinds := [.integer]
  ordered := true

def intentionalZeroResult : QueryFamily where
  familyId := "intentional-zero-result".toList
  sql := lines [
    "SELECT id, amount_cents FROM orders".toList,
    "        WHERE status = ? AND amount_cents > ? ORDER BY id".toList]
  parameterKinds := [.text, .integer]
  ordered := true

def queryFamilies : List QueryFamily :=
  [paidRevenueBySegment, customerOrderThreshold, boundedRangeScan, regionChannelAggregate,
    nullableCoupon, intentionalZeroResult]

section Ranges

/-- `_range` with integer bounds. -/
def integerRange (name : Text) (safe : isSafeIdentifier name = true) (minimum maximum : Int)
    (distribution : Distribution) (ordered : minimum ≤ maximum) : ParameterRange where
  name := ⟨name, safe⟩
  valueType := .integer
  minimum := .integer minimum
  maximum := .integer maximum
  distribution := distribution
  endpointTypes := ⟨rfl, rfl⟩
  ordered := by simpa [RangeEndpoint.exceeds] using ordered

/-- `_range` with categories, named by the first and the last. -/
def textRange (name : Text) (safe : isSafeIdentifier name = true) (minimum maximum : Text)
    (ordered : LexOrder.lexLe Char.toNat minimum maximum = true) : ParameterRange where
  name := ⟨name, safe⟩
  valueType := .text
  minimum := .text minimum
  maximum := .text maximum
  distribution := .categorical
  endpointTypes := ⟨rfl, rfl⟩
  ordered := by simpa [RangeEndpoint.exceeds] using ordered

def activeRange : ParameterRange where
  name := ⟨"active".toList, by decide⟩
  valueType := .boolean
  minimum := .boolean false
  maximum := .boolean true
  distribution := .categorical
  endpointTypes := ⟨rfl, rfl⟩
  ordered := rfl

def statusRange : ParameterRange :=
  textRange "status".toList (by decide) "failed".toList "refunded".toList (by decide)

def publishedParameterRanges (familyId : Text) : List ParameterRange :=
  if familyId = paidRevenueBySegment.familyId then
    [activeRange, statusRange,
      integerRange "created_day_start".toList (by decide) 0 3650 .orderedUniformPairLow (by decide),
      integerRange "created_day_end".toList (by decide) 0 3650 .orderedUniformPairHigh (by decide)]
  else if familyId = customerOrderThreshold.familyId then
    [integerRange "minimum_amount_cents".toList (by decide) 0 5000000 .uniform (by decide),
      statusRange,
      integerRange "minimum_order_count".toList (by decide) 1 12 .uniform (by decide)]
  else if familyId = boundedRangeScan.familyId then
    [statusRange,
      integerRange "minimum_amount_cents".toList (by decide) 0 5000000 .orderedUniformPairLow
        (by decide),
      integerRange "maximum_amount_cents".toList (by decide) 0 5000000 .orderedUniformPairHigh
        (by decide)]
  else if familyId = regionChannelAggregate.familyId then
    [textRange "region".toList (by decide) "apac".toList "north-america".toList (by decide),
      textRange "channel".toList (by decide) "api".toList "web".toList (by decide)]
  else if familyId = nullableCoupon.familyId then
    [integerRange "created_day_minimum".toList (by decide) 0 3650 .uniform (by decide)]
  else
    [textRange "status".toList (by decide) "nonexistent-status".toList "nonexistent-status".toList
        (by decide),
      integerRange "amount_cents_exclusive_floor".toList (by decide) 5000000 5000000 .categorical
        (by decide)]

end Ranges

/-- A generated fixture, with the database image that `materialize_fixture`
writes in place of its rows. -/
structure GeneratedFixture where
  descriptor : HiddenFixtureDescriptor
  parameters : List ParameterValue
  database : DatabaseFile

/-- `generate_hidden_fixtures` and `generate_public_training_fixture`. -/
structure Generator where
  hidden : Bytes → QueryFamily → List GeneratedFixture
  training : QueryFamily → GeneratedFixture

end BenchmarkV2
