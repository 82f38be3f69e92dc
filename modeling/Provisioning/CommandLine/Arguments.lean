import Provisioning.Numeral

/-! # Arguments

    How the arguments of a program are taken apart. An option has a letter, a word or both; it is
    a flag, may be repeated, or takes a value. Letters may be joined behind one dash; a value may
    be joined to its letter, with or without an equals sign, or to its word with one, or else is
    the next argument, which must then not look like an option. Two dashes alone end the options.

    A reader yields nothing if the arguments are not as declared.
-/

namespace Provisioning.CommandLine

/-- What an option asks for. -/
inductive OptionKind
  | flag
  | counter
  | value
  deriving DecidableEq, Repr

/-- The declaration of an option called `ι`. -/
structure OptionSpec (ι : Type) where
  name : ι
  kind : OptionKind
  letter? : Option Char
  word? : Option String

/-- An option that was given, with its value if it takes one. -/
structure Given (ι : Type) where
  name : ι
  value : String

/-- Options that were given and what is left to read. -/
structure Reading (ι α : Type) where
  options : List (Given ι)
  rest : α

section options
variable {ι : Type} (specs : List (OptionSpec ι))

/-- The value of an option that is the next argument. -/
def nextValue : List String → Option (String × List String)
  | [] => none
  | arg :: rest =>
    if arg.toList.head? = some '-' ∧ arg ≠ "-" then none else some (arg, rest)

/-- Reads an option whose value is not joined to it. -/
def readSeparate (spec : OptionSpec ι) (rest : List String) :
    Option (Reading ι (List String)) :=
  match spec.kind with
  | .value => (nextValue rest).map fun r => ⟨[⟨spec.name, r.1⟩], r.2⟩
  | .flag | .counter => some ⟨[⟨spec.name, ""⟩], rest⟩

/-- A text without the equals sign in front. -/
def dropEquals : List Char → List Char
  | '=' :: cs => cs
  | cs => cs

/-- Reads letters behind one dash. -/
def readLetters : List Char → (rest : List String) → Option (Reading ι (List String))
  | [], rest => some ⟨[], rest⟩
  | c :: cs, rest =>
    match specs.find? (·.letter? == some c) with
    | none => none
    | some spec =>
      match spec.kind, cs with
      | .value, [] => readSeparate spec rest
      | .value, cs => some ⟨[⟨spec.name, String.ofList (dropEquals cs)⟩], rest⟩
      | _, cs =>
        (readLetters cs rest).map fun r => { r with options := ⟨spec.name, ""⟩ :: r.options }

/-- Reads a word behind two dashes. -/
def readWord (cs : List Char) (rest : List String) : Option (Reading ι (List String)) :=
  let word := cs.takeWhile (· != '=')
  match specs.find? (·.word? == some (String.ofList word)) with
  | none => none
  | some spec =>
    match cs.drop word.length with
    | [] => readSeparate spec rest
    | _ :: value =>
      if spec.kind = .value then some ⟨[⟨spec.name, String.ofList value⟩], rest⟩ else none

/-- Whether the argument is a number below zero. -/
def isNegativeNumber (arg : String) : Bool :=
  match arg.toList with
  | '-' :: d :: digits => (d :: digits).all fun c => (Numeral.digit? 10 c).isSome
  | _ => false

/-- What an argument is, before the end of the options. -/
inductive ArgumentForm
  | endOfOptions
  | word (cs : List Char)
  | letters (cs : List Char)
  | plain

/-- Tells options from other arguments. -/
def formOf (arg : String) : ArgumentForm :=
  match arg.toList with
  | ['-', '-'] => .endOfOptions
  | '-' :: '-' :: cs => .word cs
  | '-' :: c :: cs => .letters (c :: cs)
  | _ => .plain

/-- Reads options up to the first argument that is none. -/
def readLeading : (fuel : Nat) → List String → Option (Reading ι (List String))
  | 0, _ => none
  | _, [] => some ⟨[], []⟩
  | fuel + 1, arg :: rest =>
    let more (r : Reading ι (List String)) : Option (Reading ι (List String)) :=
      (readLeading fuel r.rest).map fun r' => { r' with options := r.options ++ r'.options }
    match formOf arg with
    | .endOfOptions => none
    | .word cs => (readWord specs cs rest).bind more
    | .letters cs => (readLetters specs cs rest).bind more
    | .plain => some ⟨[], arg :: rest⟩

/-- Reads options and the arguments between them, of which `done` were read before; the one at
the place `number?` may be a number below zero. -/
def readMixed (number? : Option Nat) :
    (fuel : Nat) → (done : Nat) → List String → Option (Reading ι (List String))
  | 0, _, _ => none
  | _, _, [] => some ⟨[], []⟩
  | fuel + 1, done, arg :: rest =>
    let more (r : Reading ι (List String)) : Option (Reading ι (List String)) :=
      (readMixed number? fuel done r.rest).map fun r' =>
        { r' with options := r.options ++ r'.options }
    let plain : Option (Reading ι (List String)) :=
      (readMixed number? fuel (done + 1) rest).map fun r => { r with rest := arg :: r.rest }
    if number? = some done ∧ isNegativeNumber arg then plain
    else
      match formOf arg with
      | .endOfOptions => some ⟨[], rest⟩
      | .word cs => (readWord specs cs rest).bind more
      | .letters cs => (readLetters specs cs rest).bind more
      | .plain => plain

end options

section given
variable {ι : Type} [DecidableEq ι]

/-- The values given to an option, in order. -/
def valuesOf (name : ι) (options : List (Given ι)) : List String :=
  (options.filter (·.name = name)).map Given.value

/-- Whether every option but the counters is given at most once. -/
def areUnique (specs : List (OptionSpec ι)) (options : List (Given ι)) : Bool :=
  specs.all fun spec => spec.kind = .counter || (valuesOf spec.name options).length ≤ 1

end given

end Provisioning.CommandLine
