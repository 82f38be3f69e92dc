import Provisioning.Mode
import Provisioning.Proofs.Numeral

/-! # Codes and texts of modes

    The three settings differ in their names and codes only. What they share is `LawfulMode`: a
    mode and its code determine each other, a named mode is found under its name, and no name
    starts like the text of an unknown code. From this the text of a mode is read back.
-/

namespace Provisioning

/-! ### Codes -/

/-- What holds for the mode of a code is found by comparing the code with 0, 1 and 2, if it depends
on the code alone for the modes of all others. -/
theorem apply_modeOfCode {μ β : Type} {zero one two : μ} {other : UnknownCode → μ} (f : μ → β)
    (g : Int32 → β) (hother : ∀ u, f (other u) = g u.value) (c : Int32) :
    f (modeOfCode zero one two other c) =
      if c = 0 then f zero else if c = 1 then f one else if c = 2 then f two else g c := by
  unfold modeOfCode
  by_cases hunknown : c ≠ 0 ∧ c ≠ 1 ∧ c ≠ 2
  · rw [dif_pos hunknown, hother, if_neg hunknown.1, if_neg hunknown.2.1, if_neg hunknown.2.2]
  · rw [dif_neg hunknown]
    by_cases hzero : c = 0
    · rw [if_pos hzero, if_pos hzero]
    · by_cases hone : c = 1
      · rw [if_neg hzero, if_neg hzero, if_pos hone, if_pos hone]
      · have htwo : c = 2 := Decidable.byContradiction fun h => hunknown ⟨hzero, hone, h⟩
        rw [if_neg hzero, if_neg hzero, if_neg hone, if_neg hone, if_pos htwo]

/-- The code of the mode of a code is the code, if the modes of 0, 1 and 2 have these codes. -/
theorem code_modeOfCode {μ : Type} {zero one two : μ} {other : UnknownCode → μ}
    {code : μ → Int32} (h0 : code zero = 0) (h1 : code one = 1) (h2 : code two = 2)
    (hother : ∀ c, code (other c) = c.value) (c : Int32) :
    code (modeOfCode zero one two other c) = c := by
  rw [apply_modeOfCode code id hother, h0, h1, h2]
  grind

theorem modeOfCode_unknown {μ : Type} (zero one two : μ) (other : UnknownCode → μ)
    (c : UnknownCode) : modeOfCode zero one two other c.value = other c := by
  rw [modeOfCode, dif_pos c.unknown]

/-! ### Consistency -/

/-- A setting whose codes and names are consistent. For three named modes and one for all other
codes the laws prove themselves. -/
class LawfulMode (μ : Type) [Mode μ] : Prop where
  ofCode_code : ∀ m : μ, Mode.ofCode (Mode.code m) = m := by
    intro m
    cases m
    case unknown c => exact modeOfCode_unknown _ _ _ _ c
    all_goals rfl
  code_ofCode : ∀ c : Int32, Mode.code (Mode.ofCode c : μ) = c := by
    exact code_modeOfCode rfl rfl rfl (fun _ => rfl)
  code_of_unknownCode? : ∀ (m : μ) (c : UnknownCode), Mode.unknownCode? m = some c →
      Mode.code m = c.value := by
    intro m c h
    cases m <;> cases h
    rfl
  lookup_name : ∀ m : μ, Mode.unknownCode? m = none →
      (Mode.named (μ := μ)).lookup (Mode.name m) = some m := by
    intro m h
    cases m
    case unknown c => cases h
    all_goals rfl
  named_not_unknown : ∀ p ∈ Mode.named (μ := μ),
      Mode.dropStart? Mode.unknownStart p.1.toList = none := by
    decide
  named_ascii : ∀ p ∈ Mode.named (μ := μ), p.1.toList.all (fun c => c.toNat < 0x80) = true := by
    decide
  nodup_names : ((Mode.named (μ := μ)).map Prod.fst).Nodup := by
    decide
  code_of_named : ∀ m : μ, Mode.unknownCode? m = none →
      Mode.code m = 0 ∨ Mode.code m = 1 ∨ Mode.code m = 2 := by
    intro m h
    cases m
    case unknown c => cases h
    all_goals decide

instance : LawfulMode Ipv4Mode where

instance : LawfulMode Ipv6Mode where

instance : LawfulMode HostnameSetting where

namespace Mode

section

variable {μ : Type} [Mode μ] [LawfulMode μ]

/-- A mode is known by its code. -/
theorem code_inj {m m' : μ} (h : code m = code m') : m = m' := by
  rw [← LawfulMode.ofCode_code m, h, LawfulMode.ofCode_code m']

/-- The modes of unknown code are those made of such a code. -/
theorem unknownCode?_eq_some_iff {unknown : UnknownCode → μ}
    (hunknown : ∀ u, unknownCode? (unknown u) = some u) {m : μ} {u : UnknownCode} :
    unknownCode? m = some u ↔ m = unknown u := by
  constructor
  · intro h
    apply code_inj
    rw [LawfulMode.code_of_unknownCode? m u h,
      LawfulMode.code_of_unknownCode? (unknown u) u (hunknown u)]
  · intro h
    rw [h, hunknown]

end

/-! ### Texts -/

theorem dropStart?_append (start cs : List Char) : dropStart? start (start ++ cs) = some cs := by
  induction start with
  | nil => rfl
  | cons a start ih => simp [dropStart?, ih]

/-- The text of an unknown code is read as that code. -/
theorem writtenCode?_unknown (c : Int32) :
    writtenCode? (String.ofList (unknownStart ++ Numeral.signedDecimal c.toInt)) = some c := by
  have hlo : -((Numeral.wordValues 31 : Nat) : Int) ≤ c.toInt := c.le_toInt
  have hhi : c.toInt < (Numeral.wordValues 31 : Nat) := c.toInt_lt
  have hread := Numeral.readInt_signedDecimal hlo hhi
  rw [writtenCode?, String.toList_ofList, dropStart?_append]
  simp [Numeral.readInt32, hread, Except.map, Except.toOption]

theorem mem_of_lookup {α : Type} {table : List (String × α)} {s : String} {x : α}
    (h : table.lookup s = some x) : (s, x) ∈ table := by
  obtain ⟨before, behind, rfl, -⟩ := List.lookup_eq_some_iff.mp h
  simp

/-- Modes are written in ASCII. -/
theorem toNat_lt_of_mem_text {μ : Type} [Mode μ] [LawfulMode μ] (m : μ) :
    ∀ c ∈ (text m).toList, c.toNat < 0x80 := by
  intro c hc
  unfold text at hc
  split at hc
  · rw [String.toList_ofList] at hc
    rcases List.mem_append.mp hc with hc | hc
    · have hstart : unknownStart.all (fun c => c.toNat < 0x80) = true := by decide
      exact of_decide_eq_true (List.all_eq_true.mp hstart c hc)
    · exact Numeral.toNat_lt_of_mem_signedDecimal hc
  · next hnamed =>
    -- A mode of a known code is found under its name, so the name is one of the list.
    have hmem : (name m, m) ∈ named (μ := μ) := mem_of_lookup (LawfulMode.lookup_name m hnamed)
    exact of_decide_eq_true (List.all_eq_true.mp (LawfulMode.named_ascii _ hmem) c hc)

/-- No name starts like the text of a code that has none. -/
theorem lookup_unknown (μ : Type) [Mode μ] [LawfulMode μ] (cs : List Char) :
    (named (μ := μ)).lookup (String.ofList (unknownStart ++ cs)) = none := by
  rw [List.lookup_eq_none_iff]
  intro p hp
  have hname := LawfulMode.named_not_unknown p hp
  simp only [bne_iff_ne, ne_eq]
  intro heq
  rw [← heq, String.toList_ofList, dropStart?_append] at hname
  cases hname

/-- Every mode is read back from its text. -/
theorem ofText_text {μ : Type} [Mode μ] [LawfulMode μ] (m : μ) : ofText (text m) = .ok m := by
  rw [text]
  cases hcode : unknownCode? m with
  | none =>
    have hlookup := LawfulMode.lookup_name m hcode
    simp only [ofText, hlookup]
  | some c =>
    have hwritten := writtenCode?_unknown c.value
    have hlookup := lookup_unknown μ (Numeral.signedDecimal c.value.toInt)
    have hmode : ofCode c.value = m := by
      rw [← LawfulMode.code_of_unknownCode? m c hcode]
      exact LawfulMode.ofCode_code m
    simp only [ofText, hlookup, hwritten, hmode]

end Mode

end Provisioning
