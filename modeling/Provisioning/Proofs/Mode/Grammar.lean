import Provisioning.Proofs.Codec

/-! # The texts that denote modes

    A setting is written as one of its names, or as a number of 32 bits behind `unknown:`. Both
    denote a code, and a mode is known by its code, so what a text is read as is said by the codes
    alone: `Denotes` says which code a text denotes, and `ofText_eq_ok_iff` that the reader reads
    exactly these texts, as the mode of that code.

    A text that denotes no code is refused. All that holds of the three settings alike is
    `ExactText`; what they differ in is the table of their names.
-/

namespace Provisioning.Mode

/-! ### What texts denote -/

/-- The code that a text denotes, if the names in `names` stand for the codes beside them. -/
inductive Denotes (names : List (String × Int32)) : String → Int32 → Prop
  | name {s : String} {c : Int32} : (s, c) ∈ names → Denotes names s c
  | number {digits : List Char} {c : Int32} : Numeral.IsSigned 10 digits c.toInt →
      Denotes names (String.ofList ("unknown:".toList ++ digits)) c

/-- The names of a setting, each with its code. -/
def codes (μ : Type) [Mode μ] : List (String × Int32) :=
  named.map fun p : String × μ => (p.1, code p.2)

variable {μ : Type} [Mode μ]

theorem mem_codes_iff {s : String} {c : Int32} :
    (s, c) ∈ codes μ ↔ ∃ m : μ, (s, m) ∈ named ∧ code m = c := by
  constructor
  · intro h
    obtain ⟨⟨s', m⟩, hmem, heq⟩ := List.mem_map.mp h
    obtain ⟨rfl, rfl⟩ := Prod.mk.inj heq
    exact ⟨m, hmem, rfl⟩
  · rintro ⟨m, hmem, rfl⟩
    exact List.mem_map.mpr ⟨(s, m), hmem, rfl⟩

/-! ### Numbers -/

theorem dropStart?_eq_some_iff {start cs rest : List Char} :
    dropStart? start cs = some rest ↔ cs = start ++ rest := by
  induction start generalizing cs with
  | nil => exact ⟨Option.some.inj, congrArg some⟩
  | cons a start ih =>
    cases cs with
    | nil => simp [dropStart?]
    | cons c cs =>
      rw [dropStart?, List.cons_append, List.cons.injEq]
      by_cases h : a = c
      · rw [if_pos h, ih]
        exact ⟨fun hrest => ⟨h.symm, hrest⟩, And.right⟩
      · have hne : ¬ c = a := fun heq => h heq.symm
        simp [h, hne]

/-- The codes that are written as numbers. -/
theorem writtenCode?_eq_some_iff {s : String} {c : Int32} :
    writtenCode? s = some c ↔
      ∃ digits, s = String.ofList (unknownStart ++ digits) ∧
        Numeral.IsSigned 10 digits c.toInt := by
  have hread : ∀ digits, (Numeral.readInt32 digits).toOption = some c ↔
      Numeral.IsSigned 10 digits c.toInt := by
    intro digits
    rw [Codec.toOption_eq_some_iff, Numeral.readInt32_eq_ok_iff]
  unfold writtenCode?
  constructor
  · intro h
    split at h
    · cases h
    · next digits hdrop =>
      refine ⟨digits, ?_, (hread digits).mp h⟩
      rw [← dropStart?_eq_some_iff.mp hdrop, String.ofList_toList]
  · rintro ⟨digits, rfl, h⟩
    rw [String.toList_ofList, dropStart?_append]
    exact (hread digits).mpr h

/-! ### Names -/

/-- In a table without repeated names each entry is found under its name. -/
theorem lookup_of_mem {α : Type} {table : List (String × α)} (hnodup : (table.map Prod.fst).Nodup)
    {s : String} {x : α} (h : (s, x) ∈ table) : table.lookup s = some x := by
  obtain ⟨before, behind, rfl⟩ := List.append_of_mem h
  -- It is the first one of its name, since the entries before it have other names.
  refine List.lookup_eq_some_iff.mpr ⟨before, behind, rfl, ?_⟩
  rw [List.map_append, List.nodup_append] at hnodup
  intro p hp
  have hne := hnodup.2.2 p.1 (List.mem_map_of_mem hp) s (List.mem_map_of_mem List.mem_cons_self)
  exact bne_iff_ne.mpr hne.symm

variable [LawfulMode μ]

/-- The codes of the named modes are 0, 1 and 2. -/
theorem unknownCode?_eq_none_iff {m : μ} :
    unknownCode? m = none ↔ code m = 0 ∨ code m = 1 ∨ code m = 2 := by
  constructor
  · exact LawfulMode.code_of_named m
  · intro hknown
    cases hcode : unknownCode? m with
    | none => rfl
    | some u =>
      rw [LawfulMode.code_of_unknownCode? m u hcode] at hknown
      obtain ⟨h0, h1, h2⟩ := u.unknown
      rcases hknown with h | h | h
      · exact absurd h h0
      · exact absurd h h1
      · exact absurd h h2

theorem not_known_of_unknownCode? {m : μ} {u : UnknownCode} (h : unknownCode? m = some u) :
    ¬ (code m = 0 ∨ code m = 1 ∨ code m = 2) := by
  rw [← unknownCode?_eq_none_iff, h]
  nofun

/-! ### Reading -/

/-- A text is read as the mode whose code it denotes, and is not read if it denotes none. -/
theorem ofText_eq_ok_iff {s : String} {m : μ} :
    ofText s = .ok m ↔ Denotes (codes μ) s (code m) := by
  constructor
  · intro h
    unfold ofText at h
    -- A text in the table is a name, with the code of the mode beside it; any other is a number.
    split at h
    · next m' hlookup =>
      obtain rfl := Except.ok.inj h
      exact .name (mem_codes_iff.mpr ⟨m', mem_of_lookup hlookup, rfl⟩)
    · split at h
      · next c hwritten =>
        obtain rfl := Except.ok.inj h
        obtain ⟨digits, rfl, hdigits⟩ := writtenCode?_eq_some_iff.mp hwritten
        rw [LawfulMode.code_ofCode]
        exact .number hdigits
      · cases h
  · intro h
    generalize hcode : code m = c at h
    cases h with
    | name hmem =>
      obtain ⟨m', hnamed, hcode'⟩ := mem_codes_iff.mp hmem
      obtain rfl : m' = m := code_inj (hcode'.trans hcode.symm)
      simp only [ofText, lookup_of_mem LawfulMode.nodup_names hnamed]
    | @number digits _ hdigits =>
      -- No name starts like this, so the reader comes to the number.
      have hlookup := lookup_unknown μ digits
      have hwritten := writtenCode?_eq_some_iff.mpr ⟨digits, rfl, hdigits⟩
      have hmode : ofCode c = m := by rw [← hcode, LawfulMode.ofCode_code]
      show ofText (String.ofList (unknownStart ++ digits)) = .ok m
      simp only [ofText, hlookup, hwritten, hmode]

/-- What is refused is reported with the names that are known. -/
theorem ofText_eq_error {s : String} (h : ∀ c, ¬ Denotes (codes μ) s c) :
    ofText s = (.error ⟨noun μ, (codes μ).map Prod.fst, s⟩ : Except ModeError μ) := by
  have hnames : (codes μ).map Prod.fst = (named (μ := μ)).map Prod.fst := by
    simp [codes]
  have hnot : ∀ m : μ, ofText s ≠ .ok m := fun m hm => h (code m) (ofText_eq_ok_iff.mp hm)
  rw [hnames]
  unfold ofText at hnot ⊢
  split
  · next m hlookup => exact absurd (by rw [hlookup]) (hnot m)
  · next hlookup =>
    split
    · next c hwritten => exact absurd (by rw [hlookup, hwritten]) (hnot (ofCode c))
    · rfl

/-- The text of a mode is a name exactly if its code is that of one. -/
theorem text_canonical (m : μ) :
    if code m = 0 ∨ code m = 1 ∨ code m = 2 then (text m, code m) ∈ codes μ
    else text m =
      String.ofList ("unknown:".toList ++ Numeral.signedDecimal (code m).toInt) := by
  rw [text]
  cases hcode : unknownCode? m with
  | none =>
    rw [if_pos (unknownCode?_eq_none_iff.mp hcode)]
    exact mem_codes_iff.mpr ⟨m, mem_of_lookup (LawfulMode.lookup_name m hcode), rfl⟩
  | some u =>
    rw [if_neg (not_known_of_unknownCode? hcode), LawfulMode.code_of_unknownCode? m u hcode]
    rfl

/-! ### All that the settings share -/

/-- The texts of a setting are exact, its names standing for the codes that `names` gives. -/
structure ExactText (μ : Type) [Mode μ] (names : List (String × Int32)) : Prop where
  /-- What is read are the texts that denote a code, as a mode of that code. -/
  reads : ∀ s c, (∃ m : μ, ofText s = .ok m ∧ code m = c) ↔ Denotes names s c
  /-- So are the values of every source that are decoded. -/
  decodes : ∀ {ν : Type} (src : Source ν) (v : ν) (c : Int32),
    (∃ m : μ, (Codec.mode μ).decode src v = .ok m ∧ code m = c) ↔
      ∃ s, src.text? v = some s ∧ Denotes names s c
  /-- All other texts are refused as arguments, with the names and the text in the message. -/
  refuses : ∀ s, (∀ c, ¬ Denotes names s c) →
    ∃ e : ModeError, ofText s = (.error e : Except ModeError μ) ∧
      e.failure.kind = .invalidArgument ∧ e.names = names.map Prod.fst ∧ e.text = s
  /-- Texts of one code are texts of one mode. -/
  agree : ∀ s t c, Denotes names s c → Denotes names t c →
    ofText s = (ofText t : Except ModeError μ)
  retracts : ∀ m : μ, ofText (text m) = .ok m
  /-- Each mode is written under its name, and as a number only if it has none. -/
  canonical : ∀ m : μ,
    if code m = 0 ∨ code m = 1 ∨ code m = 2 then (text m, code m) ∈ names
    else text m = String.ofList ("unknown:".toList ++ Numeral.signedDecimal (code m).toInt)
  ofCode_code : ∀ m : μ, ofCode (code m) = m
  code_ofCode : ∀ c, code (ofCode c : μ) = c
  /-- The unknown codes are those of no name, and are kept as they are. -/
  unknown : ∀ m : μ, (unknownCode? m).map UnknownCode.value =
    if code m = 0 ∨ code m = 1 ∨ code m = 2 then none else some (code m)

/-- The texts that are read as a mode of code `c` are those that denote `c`. -/
theorem exists_ofText_iff {s : String} {c : Int32} :
    (∃ m : μ, ofText s = .ok m ∧ code m = c) ↔ Denotes (codes μ) s c := by
  constructor
  · rintro ⟨m, hread, rfl⟩
    exact ofText_eq_ok_iff.mp hread
  · intro h
    -- There is a mode for every code.
    have hcode : code (ofCode c : μ) = c := LawfulMode.code_ofCode c
    exact ⟨ofCode c, ofText_eq_ok_iff.mpr (hcode.symm ▸ h), hcode⟩

theorem exactText (μ : Type) [Mode μ] [LawfulMode μ] : ExactText μ (codes μ) where
  reads _ _ := exists_ofText_iff
  decodes src v c := by
    constructor
    · rintro ⟨m, hdecode, hcode⟩
      obtain ⟨s, hs, hread⟩ := Codec.decode_written_eq_ok_iff.mp hdecode
      exact ⟨s, hs, exists_ofText_iff.mp ⟨m, hread, hcode⟩⟩
    · rintro ⟨s, hs, h⟩
      obtain ⟨m, hread, hcode⟩ := exists_ofText_iff.mpr h
      exact ⟨m, Codec.decode_written_eq_ok_iff.mpr ⟨s, hs, hread⟩, hcode⟩
  refuses s h := ⟨_, ofText_eq_error h, rfl, rfl, rfl⟩
  agree s t c hs ht := by
    obtain ⟨m, hm, hcode⟩ := exists_ofText_iff.mpr hs
    obtain ⟨m', hm', hcode'⟩ := exists_ofText_iff.mpr ht
    rw [hm, hm', code_inj (hcode.trans hcode'.symm)]
  retracts := ofText_text
  canonical := text_canonical
  ofCode_code := LawfulMode.ofCode_code
  code_ofCode := LawfulMode.code_ofCode
  unknown m := by
    cases hcode : unknownCode? m with
    | none => rw [if_pos (unknownCode?_eq_none_iff.mp hcode), Option.map_none]
    | some u =>
      rw [if_neg (not_known_of_unknownCode? hcode), LawfulMode.code_of_unknownCode? m u hcode,
        Option.map_some]

/-- The texts of all three settings are exact. Each has its own table of names, and a host name is
sent under code 1, although the setting not to do so comes first. -/
theorem texts_exact :
    ExactText Ipv4Mode [("disabled", 0), ("static", 1), ("dhcp", 2)] ∧
      ExactText Ipv6Mode [("disabled", 0), ("slaac", 1), ("link-local", 2)] ∧
      ExactText HostnameSetting [("unset", 0), ("do-not-send", 2), ("send", 1)] :=
  ⟨exactText Ipv4Mode, exactText Ipv6Mode, exactText HostnameSetting⟩

/-- A known code is the named mode, in whatever way its number is written. -/
example : ofText "unknown:+002" = .ok Ipv6Mode.linkLocal ∧
    ofText "link-local" = .ok Ipv6Mode.linkLocal := ⟨rfl, rfl⟩

end Provisioning.Mode
