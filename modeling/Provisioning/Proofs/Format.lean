import Mathlib.Data.List.Forall2
import Provisioning.Proofs.Address.Containment
import Provisioning.Proofs.Schema
import Provisioning.Proofs.Yaml.Integer
import Provisioning.Yaml.Source

/-! # Formats of values in files

    A format says what a file may hold in the place of a value: which YAML values have the shape
    of the type, which of them have a fault, and what the others say. It is written from the
    outside, as the documentation of a file is: a mapping with its keys, the range of an integer,
    the texts that a reader takes.

    A codec follows a format if it decodes what has the shape and no fault to what it says, and
    nothing else. The formats below are put together as the codecs are, and each way of putting
    them together keeps this.
-/

namespace Provisioning

open Yaml (CoreTag IntegerText coreText? isPresent source truth?)

/-! ### YAML values -/

namespace Yaml

/-- A scalar with its text, whatever its style and tag are. -/
inductive IsText : Yaml → String → Prop
  | scalar {tag? : Option String} {s : String} {style : ScalarStyle} :
    IsText (.scalar tag? s style) s

/-- What stands for a list, with its items. An empty value stands for the empty list. -/
inductive IsList : Yaml → List Yaml → Prop
  | sequence {tag? : Option String} {vs : List Yaml} : IsList (.sequence tag? vs) vs
  | blank {tag? : Option String} : IsList (.scalar tag? "" .plain) []

/-- What stands for a record, with its members. An empty value stands for one without members. -/
inductive IsRecord : Yaml → List (Yaml × Yaml) → Prop
  | mapping {tag? : Option String} {ms : List (Yaml × Yaml)} : IsRecord (.mapping tag? ms) ms
  | blank {tag? : Option String} : IsRecord (.scalar tag? "" .plain) []

end Yaml

open Yaml (IsText IsList IsRecord)

/-! ### Formats -/

/-- What is known of the values of a type in a file. -/
structure Format (τ : Type) where
  /-- The values that have the shape of the type. -/
  Shaped : Yaml → Prop
  /-- The values in which something is wrong. -/
  Flawed : Yaml → Prop
  /-- What a value says. -/
  Says : Yaml → τ → Prop

namespace Format

variable {τ : Type}

/-- Truth values. -/
def boolean : Format Bool where
  Shaped v := ∃ s b, coreText? .boolean v = some s ∧ truth? s = some b
  Flawed _ := False
  Says v b := ∃ s, coreText? .boolean v = some s ∧ truth? s = some b

/-- Integers from `least` to `greatest`. A minus sign belongs to the shape of those only of which
some are negative. -/
def integer (least greatest : Int) (value : τ → Int) : Format τ where
  Shaped v := ∃ s i, coreText? .integer v = some s ∧ IntegerText s.toList i ∧
    (s.toList.head? = some '-' → least < 0)
  Flawed v := ∃ s i, coreText? .integer v = some s ∧ IntegerText s.toList i ∧
    ¬ (least ≤ i ∧ i ≤ greatest)
  Says v x := ∃ s, coreText? .integer v = some s ∧ IntegerText s.toList (value x)

/-- A value says one integer only. -/
theorem value_unique {least greatest : Int} {value : τ → Int} {v : Yaml} {x y : τ}
    (hx : (integer least greatest value).Says v x) (hy : (integer least greatest value).Says v y) :
    value x = value y := by
  obtain ⟨s, hs, htext⟩ := hx
  obtain ⟨t, ht, htext'⟩ := hy
  obtain rfl := Option.some.inj (hs.symm.trans ht)
  exact htext.unique htext'

/-- Nothing is wrong with a value that says an integer of the range. -/
theorem not_flawed_of_inRange {least greatest : Int} {value : τ → Int} {v : Yaml} {x : τ}
    (hx : (integer least greatest value).Says v x) (hlo : least ≤ value x)
    (hhi : value x ≤ greatest) : ¬ (integer least greatest value).Flawed v := by
  obtain ⟨s, hs, htext⟩ := hx
  rintro ⟨t, i, ht, htext', hrange⟩
  obtain rfl := Option.some.inj (hs.symm.trans ht)
  obtain rfl := htext.unique htext'
  exact hrange ⟨hlo, hhi⟩

/-- Signed numbers of 32 bits. -/
def int32 : Format Int32 :=
  integer (-2147483648) 2147483647 Int32.toInt

/-- Unsigned numbers of 32 bits. -/
def uint32 : Format UInt32 :=
  integer 0 4294967295 fun n => n.toNat

/-- Bytes. -/
def byte : Format UInt8 :=
  integer 0 255 fun b => b.toNat

/-- Values that travel as text, given the reader that refuses a text or not and what the texts
that it takes say. -/
def written (read? : String → Option τ) (Spells : String → τ → Prop) : Format τ where
  Shaped v := ∃ s, IsText v s
  Flawed v := ∃ s, IsText v s ∧ read? s = none
  Says v x := ∃ s, IsText v s ∧ Spells s x

/-- Texts, which say themselves. -/
def text : Format String :=
  written some fun s x => x = s

/-- Addresses without a length. -/
def ipAddress : Format IpAddress :=
  written IpAddress.ofString? fun s a => IpAddress.ofString? s = some a

/-- Addresses on a link: the address in front of the slash and the length behind it. -/
def linkAddress : Format LinkAddress :=
  written (fun s => (LinkAddress.ofString s).toOption)
    fun s x => readSlash s = .ok (x.address, x.length)

/-- Address blocks: the address in front of the slash with its host bits cleared, and the length
behind it. -/
def ipPrefix : Format IpPrefix :=
  written (fun s => (IpPrefix.ofString s).toOption)
    fun s p => ∃ a, readSlash s = .ok (a, p.length) ∧ a.IsLeading p.length p.address

/-- MAC addresses: one pair of digits for each byte. -/
def macAddress : Format MacAddress :=
  written (fun s => (MacAddress.ofString s).toOption) fun s m =>
    (MacAddress.splitOnChar ':' s.toList).map MacAddress.pair? = m.bytes.map some

/-- Modes, by name or by an unknown code. -/
def mode (μ : Type) [Mode μ] : Format μ :=
  written (fun s => (Mode.ofText s : Except ModeError μ).toOption) fun s m =>
    (s, m) ∈ Mode.named ∨ ∃ c, Mode.writtenCode? s = some c ∧ m = Mode.ofCode c

/-- Lists. -/
def list (f : Format τ) : Format (List τ) where
  Shaped v := ∃ vs, IsList v vs ∧ ∀ w ∈ vs, f.Shaped w
  Flawed v := ∃ vs, IsList v vs ∧ ∃ w ∈ vs, f.Flawed w
  Says v xs := ∃ vs, IsList v vs ∧ List.Forall₂ f.Says vs xs

/-- Values that may be left out or be null. -/
def option (f : Format τ) : Format (Option τ) where
  Shaped v := isPresent v = .ok false ∨ isPresent v = .ok true ∧ f.Shaped v
  Flawed v := isPresent v = .ok true ∧ f.Flawed v
  Says v
    | none => isPresent v = .ok false
    | some x => isPresent v = .ok true ∧ f.Says v x

end Format

/-! ### Records -/

/-- What is known of a member of a record in a file. -/
structure Entry (ρ : Type) : Type 1 where
  name : String
  {Value : Type}
  format : Format Value
  get : ρ → Value
  /-- What the member is where it is not written; without a default it must be written. -/
  default? : Option Value

section

variable {ρ : Type}

/-- What may be wrong with the members of a record. -/
inductive FlawedMembers (entries : List (Entry ρ)) (ms : List (Yaml × Yaml)) : Prop
  /-- A key is the name of no member. -/
  | unknown {m : Yaml × Yaml} :
    m ∈ ms → (∀ e ∈ entries, ¬ IsText m.1 e.name) → FlawedMembers entries ms
  /-- A member is written twice. -/
  | repeated {e : Entry ρ} {m m' : Yaml × Yaml} :
    e ∈ entries → [m, m'].Sublist ms → IsText m.1 e.name → IsText m'.1 e.name →
      FlawedMembers entries ms
  /-- A member without a default is not written. -/
  | lacking {e : Entry ρ} :
    e ∈ entries → e.default? = none → (∀ m ∈ ms, ¬ IsText m.1 e.name) → FlawedMembers entries ms
  /-- Something is wrong inside a member. -/
  | inside {e : Entry ρ} {m : Yaml × Yaml} :
    e ∈ entries → m ∈ ms → IsText m.1 e.name → e.format.Flawed m.2 → FlawedMembers entries ms

/-- The members of a record are those that are written, and else their defaults. -/
structure SaysMembers (entries : List (Entry ρ)) (ms : List (Yaml × Yaml)) (r : ρ) : Prop where
  written : ∀ e ∈ entries, ∀ m ∈ ms, IsText m.1 e.name → e.format.Says m.2 (e.get r)
  absent : ∀ e ∈ entries, (∀ m ∈ ms, ¬ IsText m.1 e.name) → e.default? = some (e.get r)

/-- Records with the given members and no others. -/
def Format.record (entries : List (Entry ρ)) : Format ρ where
  Shaped v := ∃ ms, IsRecord v ms ∧
    ∀ e ∈ entries, ∀ m ∈ ms, IsText m.1 e.name → e.format.Shaped m.2
  Flawed v := ∃ ms, IsRecord v ms ∧ FlawedMembers entries ms
  Says v r := ∃ ms, IsRecord v ms ∧ SaysMembers entries ms r

end

/-! ### Codecs that follow a format -/

/-- A codec that decodes what has the shape and no fault to what it says, and nothing else. -/
class Codec.Follows {τ : Type} (c : Codec τ) (f : Format τ) : Prop where
  sound : ∀ {v x}, c.decode source v = .ok x → f.Shaped v ∧ ¬ f.Flawed v ∧ f.Says v x
  complete : ∀ {v}, f.Shaped v → ¬ f.Flawed v → ∃ x, c.decode source v = .ok x

end Provisioning
