import PolicyBook.Digest
import PolicyBook.Identity
import PolicyBook.Instant.Reading
import PolicyBook.Json.Raw
import PolicyBook.RoleSet
/-!
Types with a JSON form.

`JsonForm` pairs writing with reading. What is written is read back as the same value; reading also
takes other spellings:

* a record is an object, in which fields may come in any order and unknown members are passed over
  even if they have no value, or the list of its fields in their order;
* a name out of a fixed stock is a text, or an object whose only member has that name and is empty;
* a field that may be absent is also absent when it is empty.
-/
namespace PolicyBook

/-- Values that can be written as JSON and read back. -/
class JsonForm (α : Type) where
  encode : α → Json
  read? : Json.Raw → Option α

export JsonForm (encode read?)

def decode? {α : Type} [JsonForm α] (v : Json) : Option α := read? (.value v)

namespace Json

def required? {α : Type} [JsonForm α] (field : Option Raw) : Option α :=
  field.bind read?

/-- Read a field that may be absent or empty. -/
def optional? {α : Type} [JsonForm α] : Option Raw → Option (Option α)
  | none => some none
  | some r => if r.isNull then some none else (read? r).map some

def encodeOption {α : Type} [JsonForm α] (x : Option α) : Json :=
  ofOption (x.map encode)

def named? {α : Type} (ofName? : String → Option α) (r : Raw) : Option α :=
  match r.str?, r.members? with
  | some s, _ => ofName? s
  | none, some [(s, content)] => if content.isNull then ofName? s else none
  | none, _ => none

end Json

instance : JsonForm String where
  encode := .str
  read? := Json.Raw.str?

instance : JsonForm Bool where
  encode := .bool
  read? := Json.Raw.bool?

/-- Numbers are read up to sixty-four bits. -/
instance : JsonForm Nat where
  encode := Json.nat
  read? r := do
    let n ← r.int?
    if 0 ≤ n ∧ n ≤ Text.maxWord then some n.toNat else none

instance {α : Type} [JsonForm α] : JsonForm (List α) where
  encode xs := .arr (xs.map encode)
  read? r := r.items?.bind fun items => items.mapM read?

instance : JsonForm Role where
  encode r := .str r.name
  read? := Json.named? Role.ofName?

instance : JsonForm RoleSet where
  encode s := encode s.toList
  read? r := (read? r).map RoleSet.ofList

instance : JsonForm Instant where
  encode t := .str t.text
  read? r := r.str?.bind Instant.ofText?

instance : JsonForm Uuid where
  encode u := .str u.text
  read? r := r.str?.bind Uuid.ofText?

/-- A policy identifier is written without its mark. -/
instance : JsonForm PolicyId where
  encode id := encode id.uuid
  read? r := (read? r).map PolicyId.mk

instance : JsonForm HolderId where
  encode id := .str id.text
  read? r := r.str?.map HolderId.mk

instance : JsonForm ClaimId where
  encode id := .str id.text
  read? r := r.str?.map ClaimId.mk

instance : JsonForm ProposalId where
  encode id := .str id.text
  read? r := r.str?.map ProposalId.mk

/-- A digest is the list of its bytes. -/
instance : JsonForm Digest where
  encode d := .arr (d.toBytes.map fun b => .nat b.toNat)
  read? r := do
    let bytes : List Nat ← read? r
    guard (bytes.all (· < 256))
    Digest.ofBytes? (bytes.map Nat.toUInt8)

end PolicyBook
