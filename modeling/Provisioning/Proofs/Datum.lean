import Provisioning.Data

/-! # Readable data

    Text formats do not carry every datum: integers have to fit a word of 64 bits, collections
    may not be nested too deeply, and names of members have to be such that they are never taken
    for anything else. `Datum.Readable` collects what the readers of JSON and YAML ask for. All
    data that the codecs of the library make is readable. What the printers and the readers do to
    such data is proved by `Datum.Readable.induction`, from the parts to the whole.
-/

namespace Provisioning

/-! ### Names -/

/-- A letter of the Latin alphabet. -/
def isLetter (c : Char) : Bool :=
  ('a' ≤ c && c ≤ 'z') || ('A' ≤ c && c ≤ 'Z')

/-- A character of the names of members: a letter, a digit or a dash. -/
def isNamePart (c : Char) : Bool :=
  isLetter c || ('0' ≤ c && c ≤ '9') || c == '-'

/-- How long the name of a member may be. -/
def nameLimit : Nat := 1000

/-- A name of a member: letters, digits and dashes behind a letter. -/
def isMemberName : List Char → Bool
  | [] => false
  | c :: cs => isLetter c && cs.all isNamePart && decide (cs.length < nameLimit)

/-! ### Data -/

/-- An integer that fits a signed word of 64 bits. -/
def FitsWord (i : Int) : Prop :=
  -0x8000000000000000 ≤ i ∧ i < 0x8000000000000000

namespace Datum

/-- Whether readers take the datum for what it is, collections being nested no more than `depth`
levels. -/
def Readable : (depth : Nat) → Datum → Prop
  | _, .null | _, .boolean _ | _, .text _ => True
  | _, .integer i => FitsWord i
  | 0, .list _ | 0, .record _ => False
  | depth + 1, .list items => ∀ d ∈ items, Readable depth d
  | depth + 1, .record members =>
    ∀ m ∈ members, isMemberName m.1.toList = true ∧ Readable depth m.2

@[simp] theorem readable_null (depth : Nat) : Readable depth .null := by
  cases depth <;> trivial

@[simp] theorem readable_boolean (depth : Nat) (b : Bool) : Readable depth (.boolean b) := by
  cases depth <;> trivial

@[simp] theorem readable_text (depth : Nat) (s : String) : Readable depth (.text s) := by
  cases depth <;> trivial

@[simp] theorem readable_integer (depth : Nat) (i : Int) :
    Readable depth (.integer i) ↔ FitsWord i := by
  cases depth <;> rfl

/-- More levels admit more data. -/
theorem Readable.mono {depth : Nat} {d : Datum} (h : Readable depth d) :
    Readable (depth + 1) d := by
  induction depth generalizing d with
  | zero => cases d <;> simp_all [Readable]
  | succ depth ih =>
    cases d with
    | null | boolean | text => simp
    | integer i => simpa using h
    | list items =>
      intro d hd
      exact ih (h d hd)
    | record members =>
      intro m hm
      exact ⟨(h m hm).1, ih (h m hm).2⟩

theorem Readable.le {depth more : Nat} {d : Datum} (h : Readable depth d) (hle : depth ≤ more) :
    Readable more d := by
  induction hle with
  | refl => exact h
  | step _ ih => exact ih.mono

/-! ### Texts -/

/-- A text that stands somewhere in a datum, names of members not counted. -/
inductive HasText (s : String) : Datum → Prop
  | text : HasText s (.text s)
  | item {d : Datum} {ds : List Datum} : d ∈ ds → HasText s d → HasText s (.list ds)
  | member {m : String × Datum} {ms : List (String × Datum)} :
      m ∈ ms → HasText s m.2 → HasText s (.record ms)

/-! ### Data by their parts -/

/-- A datum without parts that readers take for what it is. -/
inductive Leaf : Datum → Prop
  | null : Leaf .null
  | boolean (b : Bool) : Leaf (.boolean b)
  | integer {i : Int} (hi : FitsWord i) : Leaf (.integer i)
  | text (s : String) : Leaf (.text s)
  | emptyList : Leaf (.list [])
  | emptyRecord : Leaf (.record [])

/-- What holds of data without parts, and of a list or a record if it holds of its parts one level
down, holds of all readable data. -/
@[elab_as_elim]
theorem Readable.induction {motive : (depth : Nat) → (d : Datum) → Readable depth d → Prop}
    (leaf : ∀ {depth d} (_ : Leaf d) (h : Readable depth d), motive depth d h)
    (list : ∀ {depth d ds} (h : Readable (depth + 1) (.list (d :: ds))),
      (∀ e (he : e ∈ d :: ds), motive depth e (h e he)) → motive (depth + 1) (.list (d :: ds)) h)
    (record : ∀ {depth name d ms} (h : Readable (depth + 1) (.record ((name, d) :: ms))),
      (∀ m (hm : m ∈ (name, d) :: ms), motive depth m.2 (h m hm).2) →
      motive (depth + 1) (.record ((name, d) :: ms)) h)
    {depth : Nat} {d : Datum} (h : Readable depth d) : motive depth d h := by
  induction depth generalizing d with
  | zero =>
    cases d with
    | null => exact leaf .null h
    | boolean b => exact leaf (.boolean b) h
    | integer i => exact leaf (.integer h) h
    | text s => exact leaf (.text s) h
    | list | record => exact h.elim
  | succ depth ih =>
    cases d with
    | null => exact leaf .null h
    | boolean b => exact leaf (.boolean b) h
    | integer i => exact leaf (.integer h) h
    | text s => exact leaf (.text s) h
    | list ds =>
      cases ds with
      | nil => exact leaf .emptyList h
      | cons d ds => exact list h fun e he => ih (h e he)
    | record ms =>
      cases ms with
      | nil => exact leaf .emptyRecord h
      | cons m ms => exact record h fun m hm => ih (h m hm).2

end Datum

end Provisioning
