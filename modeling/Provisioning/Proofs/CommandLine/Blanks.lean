import Mathlib.Tactic.SplitIfs
import Provisioning.CommandLine
import Provisioning.Proofs.Configuration.Respelling
import Provisioning.Proofs.Configuration.Schema

/-! # No-break spaces

    The program puts a blank in the place of every no-break space of a file before it reads the
    file. Neither JSON nor YAML is written with no-break spaces but those of texts, so a file
    without them in its texts is read as it is. In JSON such a character stands for itself
    between quotes, hence from the stable form of a parcel that of the respelled parcel is made.
    In YAML the style of a text depends on its characters, and nothing of the kind holds.
-/

namespace Provisioning

namespace CommandLine

/-! ### Characters and texts -/

theorem plainBlank_eq_self {c : Char} (h : c ≠ noBreakSpace) : plainBlank c = c := if_neg h

theorem plainBlank_ne_noBreakSpace (c : Char) : plainBlank c ≠ noBreakSpace := by
  unfold plainBlank
  split
  · decide
  · assumption

/-- A character of ASCII is no no-break space. -/
theorem ne_noBreakSpace_of_ascii {c : Char} (h : c.toNat < 0x80) : c ≠ noBreakSpace := by
  rintro rfl
  exact absurd h (by decide)

theorem map_plainBlank_eq_self {cs : List Char} (h : noBreakSpace ∉ cs) :
    cs.map plainBlank = cs := by
  have hall : cs.map plainBlank = cs.map id := by
    refine List.map_congr_left ?_
    intro c hc
    exact plainBlank_eq_self fun heq => h (heq ▸ hc)
  rw [hall, List.map_id]

theorem noBreakSpace_not_mem_plainBlanks (s : String) :
    noBreakSpace ∉ (plainBlanks s).toList := by
  intro h
  unfold plainBlanks at h
  rw [String.toList_ofList] at h
  obtain ⟨c, -, hc⟩ := List.mem_map.mp h
  exact plainBlank_ne_noBreakSpace c hc

/-- A text is left as it is if it has no no-break spaces, and only then. -/
theorem plainBlanks_eq_self_iff {s : String} : plainBlanks s = s ↔ noBreakSpace ∉ s.toList := by
  constructor
  · intro h
    rw [← h]
    exact noBreakSpace_not_mem_plainBlanks s
  · intro h
    unfold plainBlanks
    rw [map_plainBlank_eq_self h, String.ofList_toList]

instance : Respelling plainBlanks where
  ascii s h := by
    refine plainBlanks_eq_self_iff.mpr ?_
    intro hmem
    exact ne_noBreakSpace_of_ascii (h _ hmem) rfl

/-! ### In JSON -/

/-- Other characters are not written with no-break spaces. -/
theorem noBreakSpace_not_mem_charText {c : Char} (h : c ≠ noBreakSpace) :
    noBreakSpace ∉ Json.charText c := by
  have hdigit : ∀ n, n < 16 → noBreakSpace ≠ Numeral.hexDigit n := by
    intro n hn
    rw [Numeral.hexDigit_eq_digitChar hn]
    exact (ne_noBreakSpace_of_ascii (Numeral.toNat_digitChar_lt hn)).symm
  unfold Json.charText
  split_ifs
  any_goals decide
  · -- The other control characters are written in two digits.
    have hhigh := hdigit (c.toNat / 16) (by omega)
    have hlow := hdigit (c.toNat % 16) (by omega)
    simp only [List.mem_cons, hhigh, hlow, List.not_mem_nil, or_false]
    decide
  · simpa using h.symm

theorem map_plainBlank_charText (c : Char) :
    (Json.charText c).map plainBlank = Json.charText (plainBlank c) := by
  by_cases h : c = noBreakSpace
  · subst h
    decide
  · rw [map_plainBlank_eq_self (noBreakSpace_not_mem_charText h), plainBlank_eq_self h]

theorem map_plainBlank_stringText (s : String) :
    (Json.stringText s).map plainBlank = Json.stringText (plainBlanks s) := by
  have hquote : plainBlank '"' = '"' := by decide
  unfold Json.stringText plainBlanks
  simp only [List.map_cons, List.map_append, List.map_nil, List.map_flatMap,
    map_plainBlank_charText, hquote, String.toList_ofList, List.flatMap_map]

/-- Names of members are written in ASCII. -/
theorem plainBlanks_memberName {name : String} (h : isMemberName name.toList = true) :
    plainBlanks name = name := by
  refine plainBlanks_eq_self_iff.mpr ?_
  obtain ⟨c, cs, hcons, -, hparts, -⟩ := Yaml.exists_of_isMemberName h
  rw [hcons]
  intro hmem
  exact absurd (hparts _ hmem) (by decide)

section

variable {l : Json.Layout} (hl : l.OnlyBlanks)

include hl

theorem map_plainBlank_newLine (depth : Nat) :
    (l.newLine depth).map plainBlank = l.newLine depth := by
  refine map_plainBlank_eq_self ?_
  intro hmem
  exact absurd (hl.1 depth _ hmem) (by decide)

theorem map_plainBlank_behindColon : l.behindColon.map plainBlank = l.behindColon := by
  refine map_plainBlank_eq_self ?_
  intro hmem
  exact absurd (hl.2 _ hmem) (by decide)

omit hl in
/-- A datum from whose text that of the respelled datum is made. -/
def Respaces (l : Json.Layout) (d : Datum) : Prop :=
  ∀ depth, (Json.text l depth d).map plainBlank = Json.text l depth (d.mapTexts plainBlanks)

omit hl in
theorem respaces_of_leaf {d : Datum} (hd : d.Leaf) : Respaces l d := by
  intro depth
  cases hd with
  | null =>
    rw [Datum.mapTexts, Json.text]
    decide
  | boolean b =>
    cases b <;> rw [Datum.mapTexts, Json.text] <;> decide
  | integer hi =>
    rw [Datum.mapTexts, Json.text]
    refine map_plainBlank_eq_self ?_
    intro hmem
    exact ne_noBreakSpace_of_ascii (Numeral.toNat_lt_of_mem_signedDecimal hmem) rfl
  | text s =>
    rw [Datum.mapTexts, Json.text, Json.text]
    exact map_plainBlank_stringText s
  | emptyList =>
    rw [Datum.mapTexts, Datum.mapItems, Json.text]
    decide
  | emptyRecord =>
    rw [Datum.mapTexts, Datum.mapMembers, Json.text]
    decide

theorem map_plainBlank_moreItems (depth : Nat) {ds : List Datum} (h : ∀ d ∈ ds, Respaces l d) :
    (Json.moreItems l depth ds).map plainBlank =
      Json.moreItems l depth (Datum.mapItems plainBlanks ds) := by
  have hcomma : plainBlank ',' = ',' := by decide
  have hclose : plainBlank ']' = ']' := by decide
  induction ds with
  | nil =>
    simp only [Datum.mapItems, Json.moreItems, List.map_append, List.map_cons, List.map_nil,
      map_plainBlank_newLine hl, hclose]
  | cons d ds ih =>
    have hd := h d List.mem_cons_self (depth + 1)
    have hds := ih fun e he => h e (List.mem_cons_of_mem _ he)
    simp only [Datum.mapItems, Json.moreItems, List.map_append, List.map_cons,
      map_plainBlank_newLine hl, hcomma, hd, hds]

theorem map_plainBlank_memberText (depth : Nat) {name : String}
    (hname : isMemberName name.toList = true) {d : Datum} (hd : Respaces l d) :
    (Json.memberText l depth name d).map plainBlank =
      Json.memberText l depth name (d.mapTexts plainBlanks) := by
  have hcolon : plainBlank ':' = ':' := by decide
  have hd := hd (depth + 1)
  simp only [Json.memberText, List.map_append, List.map_cons, map_plainBlank_stringText,
    plainBlanks_memberName hname, map_plainBlank_behindColon hl, hcolon, hd]

theorem map_plainBlank_moreMembers (depth : Nat) {ms : List (String × Datum)}
    (h : ∀ m ∈ ms, isMemberName m.1.toList = true ∧ Respaces l m.2) :
    (Json.moreMembers l depth ms).map plainBlank =
      Json.moreMembers l depth (Datum.mapMembers plainBlanks ms) := by
  have hcomma : plainBlank ',' = ',' := by decide
  have hclose : plainBlank '\x7d' = '\x7d' := by decide
  induction ms with
  | nil =>
    simp only [Datum.mapMembers, Json.moreMembers, List.map_append, List.map_cons, List.map_nil,
      map_plainBlank_newLine hl, hclose]
  | cons m ms ih =>
    obtain ⟨name, d⟩ := m
    obtain ⟨hname, hd⟩ := h (name, d) List.mem_cons_self
    have hmember := map_plainBlank_memberText hl depth hname hd
    have hms := ih fun e he => h e (List.mem_cons_of_mem _ he)
    simp only [Datum.mapMembers, Json.moreMembers, List.map_append, List.map_cons,
      map_plainBlank_newLine hl, hcomma, hmember, hms]

/-- The text of a datum without no-break spaces is that of the respelled datum. -/
theorem map_plainBlank_text {bound : Nat} {d : Datum} (h : d.Readable bound) : Respaces l d := by
  -- The induction is on the datum; whatever stands between its parts is ASCII and stays.
  induction h using Datum.Readable.induction with
  | leaf hd => exact respaces_of_leaf hd
  | list _ ih =>
    intro depth
    have hopen : plainBlank '[' = '[' := by decide
    have hd := ih _ List.mem_cons_self (depth + 1)
    have hds := map_plainBlank_moreItems hl depth fun e he => ih e (List.mem_cons_of_mem _ he)
    simp only [Datum.mapTexts, Datum.mapItems, Json.text, List.map_append, List.map_cons,
      map_plainBlank_newLine hl, hopen, hd, hds]
  | record h ih =>
    intro depth
    have hopen : plainBlank '\x7b' = '\x7b' := by decide
    have hm := map_plainBlank_memberText hl depth (h _ List.mem_cons_self).1
      (ih _ List.mem_cons_self)
    have hms := map_plainBlank_moreMembers hl depth fun m hm =>
      ⟨(h m (List.mem_cons_of_mem _ hm)).1, ih m (List.mem_cons_of_mem _ hm)⟩
    simp only [Datum.mapTexts, Datum.mapMembers, Json.text, List.map_append, List.map_cons,
      map_plainBlank_newLine hl, hopen, hm, hms]

end

theorem line_ofList (cs : List Char) : line (String.ofList cs) = String.ofList (cs ++ ['\n']) := by
  unfold line
  rw [← String.ofList_append]

/-- From a line of JSON the parcel is read that has blanks in the place of no-break spaces. -/
theorem ofJson_plainBlanks {l : Json.Layout} (hl : l.OnlyBlanks) (p : Parcel) :
    let text := String.ofList (Json.text l 0 (Parcel.schema.codec.encode p))
    Parcel.ofJson (plainBlanks (line text)) = .ok (p.mapTexts plainBlanks) := by
  intro text
  have hreadable := Codec.Lawful.readable (c := Parcel.schema.codec) (n := 5) p
  have hrespelled := Codec.Respells.mapTexts_encode (c := Parcel.schema.codec) (f := plainBlanks) p
  have hnewline : plainBlank '\n' = '\n' := by decide
  have hline : plainBlanks (line text) = String.ofList
      (Json.text l 0 (Parcel.schema.codec.encode (p.mapTexts plainBlanks)) ++ ['\n']) := by
    rw [line_ofList, plainBlanks, String.toList_ofList, List.map_append,
      map_plainBlank_text hl hreadable 0, hrespelled, List.map_singleton, hnewline]
  have hread := Codec.ofJson_text_append Parcel.schema.codec 5 hl (p.mapTexts plainBlanks)
    (show ∀ c ∈ ['\n'], Json.isBlank c = true by simp [Json.isBlank])
  unfold Parcel.ofJson Codec.ofStableText
  rw [hline, hread]

/-! ### In YAML -/

/-- A configuration without no-break spaces in its texts has no text that is spelled otherwise. -/
theorem mapTexts_plainBlanks_eq_self {c : Configuration}
    (h : ∀ t ∈ c.texts, noBreakSpace ∉ t.toList) : c.mapTexts plainBlanks = c := by
  refine Configuration.mapTexts_eq_self ?_
  intro t ht
  exact plainBlanks_eq_self_iff.mpr (h t ht)

/-- A configuration without no-break spaces in its texts has none in its file. -/
theorem plainBlanks_toYaml {c : Configuration} (h : ∀ t ∈ c.texts, noBreakSpace ∉ t.toList) :
    plainBlanks c.toYaml = c.toYaml := by
  have hrespelled :=
    Codec.Respells.mapTexts_encode (c := Configuration.schema.codec) (f := plainBlanks) c
  rw [mapTexts_plainBlanks_eq_self h] at hrespelled
  have hreadable := Codec.Lawful.readable (c := Configuration.schema.codec) (n := 5) c
  -- What is not ASCII stands for a character of a text, and no text has been spelled otherwise.
  have hascii : Yaml.HasAscii (· ≠ noBreakSpace) := fun c _ hc => ne_noBreakSpace_of_ascii hc
  have hall : Yaml.AllOf (· ≠ noBreakSpace)
      (Yaml.lines 0 (Configuration.schema.codec.encode c)) := by
    refine Yaml.allOf_lines hascii hreadable ?_ 0
    rintro s hs c hc - rfl
    exact plainBlanks_eq_self_iff.mp (hs.eq_of_mapTexts_eq hrespelled) hc
  refine plainBlanks_eq_self_iff.mpr ?_
  show noBreakSpace ∉ (String.ofList (Yaml.lines 0 (Configuration.schema.codec.encode c))).toList
  rw [String.toList_ofList]
  intro hmem
  exact hall _ hmem rfl

end CommandLine

end Provisioning
