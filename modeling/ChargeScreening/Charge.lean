import ChargeScreening.Attributes
import ChargeScreening.Console

/-!
# Charges

A payment submitted for a decision, and the attributes that rules read of it.

## Main definitions

* `Charge`: the payment, with its `Payer`, `PaymentMethod` and `Device`
* `Charge.attributes`: what rules read of it
-/

namespace ChargeScreening

/-- Who pays. -/
structure Payer where
  email : Option String := none
  phone : Option String := none
  name : Option String := none
  document : Option String := none
deriving DecidableEq, Repr

/-- What the payment is made with. -/
structure PaymentMethod where
  kind : Option String := none
  cardHash : Option String := none
  bin : Option String := none
  last4 : Option String := none
  brand : Option String := none
  country : Option String := none
  issuer : Option String := none
deriving DecidableEq, Repr

/-- The device the payment is made from. -/
structure Device where
  fingerprint : Option String := none
  ipAddress : Option String := none
  userAgent : Option String := none
deriving DecidableEq, Repr

/-- A payment submitted for a decision. -/
structure Charge where
  id : String := ""
  companyId : String
  amount : Float
  currency : Option String := none
  monthlyInstallments : Option Nat := none
  description : Option String := none
  payer : Payer := {}
  paymentMethod : PaymentMethod := {}
  device : Option Device := none
  /-- Identity signals. -/
  identity : Members := []
  /-- Velocity aggregates reckoned beforehand. -/
  aggregation : Members := []
  metadata : Members := []
  /-- The caller's own console. -/
  console : Option Console := none

/-- The parts of a record that are present, each under its name. -/
abbrev NamedTexts := List (String × Option String)

namespace NamedTexts

/-- The object of the texts that are present. -/
def toValue (parts : NamedTexts) : Value :=
  .object (parts.filterMap fun p => p.2.map fun s => (p.1, .text s))

/-- The JSON object of the texts that are present. -/
def toJson (parts : NamedTexts) : Json :=
  .object (parts.filterMap fun p => p.2.map fun s => (p.1, .string s))

end NamedTexts

namespace Payer

/-- The parts by name. -/
def parts (p : Payer) : NamedTexts :=
  [("email", p.email), ("phone", p.phone), ("name", p.name), ("document", p.document)]

/-- Reads the JSON form. -/
def ofJson? (j : Json) : Option Payer := do
  let r ← j.record? 4
  let email ← r.optional? 0 ["email"] Json.text?
  let phone ← r.optional? 1 ["phone"] Json.text?
  let name ← r.optional? 2 ["name"] Json.text?
  let document ← r.optional? 3 ["document"] Json.text?
  return { email, phone, name, document }

end Payer

namespace PaymentMethod

/-- The parts by name. -/
def parts (p : PaymentMethod) : NamedTexts :=
  [("type", p.kind), ("card_hash", p.cardHash), ("bin", p.bin), ("last4", p.last4),
    ("brand", p.brand), ("country", p.country), ("issuer", p.issuer)]

/-- Reads the JSON form. -/
def ofJson? (j : Json) : Option PaymentMethod := do
  let r ← j.record? 7
  let kind ← r.optional? 0 ["type"] Json.text?
  let cardHash ← r.optional? 1 ["card_hash"] Json.text?
  let bin ← r.optional? 2 ["bin"] Json.text?
  let last4 ← r.optional? 3 ["last4"] Json.text?
  let brand ← r.optional? 4 ["brand"] Json.text?
  let country ← r.optional? 5 ["country"] Json.text?
  let issuer ← r.optional? 6 ["issuer"] Json.text?
  return { kind, cardHash, bin, last4, brand, country, issuer }

end PaymentMethod

namespace Device

/-- The parts by name. -/
def parts (d : Device) : NamedTexts :=
  [("fingerprint", d.fingerprint), ("ip_address", d.ipAddress), ("user_agent", d.userAgent)]

/-- Reads the JSON form. -/
def ofJson? (j : Json) : Option Device := do
  let r ← j.record? 3
  let fingerprint ← r.optional? 0 ["fingerprint"] Json.text?
  let ipAddress ← r.optional? 1 ["ip_address"] Json.text?
  let userAgent ← r.optional? 2 ["user_agent"] Json.text?
  return { fingerprint, ipAddress, userAgent }

end Device

namespace Charge

/-- What rules read of the charge. Parts that are absent are left out, so that a rule about them
reports a missing operand. -/
def attributes (c : Charge) : Attributes :=
  let parts : List (Option (String × Value)) :=
    [if c.id.isEmpty then none else some ("id", .text c.id),
      some ("company_id", .text c.companyId),
      some ("amount", .number c.amount),
      c.currency.map fun s => ("currency", .text s),
      c.monthlyInstallments.map fun n =>
        ("monthly_installments", .number (Decimal.nearest n 0)),
      c.description.map fun s => ("description", .text s),
      some ("payer", c.payer.parts.toValue),
      some ("payment_method", c.paymentMethod.parts.toValue),
      c.device.map fun d => ("device", d.parts.toValue),
      some ("identity", .object c.identity),
      some ("aggregation", .object c.aggregation),
      some ("metadata", .object c.metadata)]
  ⟨parts.filterMap fun part => part⟩

/-- The JSON form. -/
def toJson (c : Charge) : Json :=
  Json.objectOf [Json.member "id" (.string c.id),
    Json.member "company_id" (.string c.companyId),
    Json.member "amount" (.ofFloat c.amount),
    Json.member? "currency" c.currency .string,
    Json.member? "monthly_installments" c.monthlyInstallments Json.ofNat,
    Json.member? "description" c.description .string,
    Json.member "payer" c.payer.parts.toJson,
    Json.member "payment_method" c.paymentMethod.parts.toJson,
    Json.member? "device" c.device fun d => d.parts.toJson,
    Json.member "identity" (Value.object c.identity).toJson,
    Json.member "aggregation" (Value.object c.aggregation).toJson,
    Json.member "metadata" (Value.object c.metadata).toJson,
    Json.member? "console" c.console Console.toJson]

/-- Reads the JSON form. -/
def ofJson? (j : Json) : Option Charge := do
  let r ← j.record? 13
  let id ← r.withDefault? 0 ["id"] "" Json.text?
  let companyId ← r.required? 1 ["company_id"] Json.text?
  let amount ← r.required? 2 ["amount"] Json.double?
  let currency ← r.optional? 3 ["currency"] Json.text?
  let monthlyInstallments ← r.optional? 4 ["monthly_installments"] (Json.natBelow? (Nat.pow 2 32))
  let description ← r.optional? 5 ["description"] Json.text?
  let payer ← r.withDefault? 6 ["payer"] {} Payer.ofJson?
  let paymentMethod ← r.withDefault? 7 ["payment_method"] {} PaymentMethod.ofJson?
  let device ← r.optional? 8 ["device"] Device.ofJson?
  let identity ← r.withDefault? 9 ["identity"] [] Value.membersOfJson?
  let aggregation ← r.withDefault? 10 ["aggregation"] [] Value.membersOfJson?
  let metadata ← r.withDefault? 11 ["metadata"] [] Value.membersOfJson?
  let console ← r.optional? 12 ["console"] Console.ofJson?
  return { id, companyId, amount, currency, monthlyInstallments, description, payer,
           paymentMethod, device, identity, aggregation, metadata, console }

end Charge

end ChargeScreening
