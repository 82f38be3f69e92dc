import Provisioning.Rendering

/-! # Renderings that can be told apart

    Nothing is escaped in a rendering. A value stands in a list or in a record with no more behind
    it than a separator or a closing bracket, and what looks like one of these may as well be part
    of the value. A rendering is legible if it can be told all the same which value a text is of and
    where it ends.

    What holds no marks is legible if different values have different texts. An option, a list and
    a record are legible if what is in them is, so a rendering without free text is legible by the
    way in which it is put together: `legible_of_unmarked`, `legible_option`, `legible_list` and
    `legible_record`.
-/

namespace Provisioning.Rendering

/-! ### Marks -/

/-- The characters that stand behind values. -/
def IsMark (c : Char) : Prop :=
  c = ',' ∨ c = ']' ∨ c = '}'

instance (c : Char) : Decidable (IsMark c) :=
  inferInstanceAs (Decidable (_ ∨ _ ∨ _))

/-- What stands behind a value in a list or in a record. -/
def Ends (rest : List Char) : Prop :=
  ∃ c more, rest = c :: more ∧ IsMark c

theorem ends_cons {c : Char} (hc : IsMark c) (more : List Char) : Ends (c :: more) :=
  ⟨c, more, rfl, hc⟩

/-- Texts without marks are told apart by the first mark behind them. -/
theorem append_inj_of_unmarked {a b s t : List Char} (ha : ∀ c ∈ a, ¬ IsMark c)
    (hb : ∀ c ∈ b, ¬ IsMark c) (hs : Ends s) (ht : Ends t) (h : a ++ s = b ++ t) :
    a = b ∧ s = t := by
  -- Either text is the run of characters in front of the first mark.
  have hrun : ∀ {w rest : List Char}, (∀ c ∈ w, ¬ IsMark c) → Ends rest →
      (w ++ rest).takeWhile (fun c => !decide (IsMark c)) = w := by
    intro w rest hw hrest
    obtain ⟨c, more, rfl, hc⟩ := hrest
    rw [List.takeWhile_append_of_pos (by simpa using hw),
      List.takeWhile_cons_of_neg (by simpa using hc), List.append_nil]
  have hab : a = b := by rw [← hrun ha hs, h, hrun hb ht]
  subst hab
  exact ⟨rfl, List.append_cancel_left h⟩

/-! ### Legible renderings -/

section

variable {α : Type} {render : α → String}

/-- A rendering from which the value can be told, and where its text ends, whatever stands behind
it. -/
structure Legible (render : α → String) : Prop where
  unique : ∀ {x y : α} {s t : List Char}, Ends s → Ends t →
    (render x).toList ++ s = (render y).toList ++ t → x = y ∧ s = t

/-- Different values have different texts. -/
theorem Legible.injective (h : Legible render) : Function.Injective render := by
  intro x y heq
  have hends : Ends [','] := ends_cons (by decide) []
  exact (h.unique hends hends (by rw [heq])).1

theorem legible_of_unmarked (hinjective : Function.Injective render)
    (hunmarked : ∀ x, ∀ c ∈ (render x).toList, ¬ IsMark c) : Legible render := by
  constructor
  intro x y s t hs ht heq
  obtain ⟨htext, hrest⟩ := append_inj_of_unmarked (hunmarked x) (hunmarked y) hs ht heq
  exact ⟨hinjective (String.toList_inj.mp htext), hrest⟩

/-- A missing value can be told from the values that do not start like `null`. A text may be empty,
since no mark is like this either. -/
theorem legible_option (h : Legible render) (hnull : ∀ x, (render x).toList.head? ≠ some 'n') :
    Legible (option render) := by
  have hne : ∀ {x : α} {s t : List Char}, Ends t → "null".toList ++ s ≠ (render x).toList ++ t := by
    intro x s t ht heq
    cases htext : (render x).toList with
    | nil =>
      obtain ⟨c, more, rfl, hc⟩ := ht
      rw [htext] at heq
      obtain ⟨rfl, -⟩ := List.cons.inj heq
      exact absurd hc (by decide)
    | cons c cs =>
      rw [htext] at heq
      obtain ⟨rfl, -⟩ := List.cons.inj heq
      exact hnull x (by rw [htext]; rfl)
  constructor
  intro x? y? s t hs ht heq
  cases x? with
  | none =>
    cases y? with
    | none => exact ⟨rfl, List.append_cancel_left heq⟩
    | some y => exact absurd heq (hne ht)
  | some x =>
    cases y? with
    | none => exact absurd heq.symm (hne hs)
    | some y =>
      obtain ⟨rfl, hrest⟩ := h.unique hs ht heq
      exact ⟨rfl, hrest⟩

end

/-! ### Separators -/

/-- Texts with a separator in front of each of them. -/
def separated (texts : List String) : List Char :=
  texts.flatMap fun s => ',' :: ' ' :: s.toList

@[simp] theorem separated_nil : separated [] = [] := rfl

@[simp] theorem separated_cons (s : String) (texts : List String) :
    separated (s :: texts) = ',' :: ' ' :: (s.toList ++ separated texts) := rfl

theorem toList_joined_cons (s : String) (texts : List String) :
    (joined (s :: texts)).toList = s.toList ++ separated texts := by
  induction texts generalizing s with
  | nil => simp [joined]
  | cons s' texts ih =>
    show (s ++ (", " ++ joined (s' :: texts))).toList = _
    rw [String.toList_append, String.toList_append, ih]
    rfl

/-- Behind a value there is a separator or the bracket that closes. -/
theorem ends_separated {close : Char} (hclose : IsMark close) (texts : List String)
    (more : List Char) : Ends (separated texts ++ close :: more) := by
  cases texts with
  | nil => exact ends_cons hclose more
  | cons s texts => exact ends_cons (by decide) _

/-! ### Lists -/

section

variable {α : Type} {render : α → String}

/-- The items can be told from the separators in front of them. -/
theorem separated_map_inj (h : Legible render) {xs ys : List α} {s t : List Char}
    (heq : separated (xs.map render) ++ ']' :: s = separated (ys.map render) ++ ']' :: t) :
    xs = ys ∧ s = t := by
  induction xs generalizing ys with
  | nil =>
    cases ys with
    | nil => exact ⟨rfl, (List.cons.inj heq).2⟩
    | cons y ys => exact absurd (List.cons.inj heq).1 (by decide)
  | cons x xs ih =>
    cases ys with
    | nil => exact absurd (List.cons.inj heq).1 (by decide)
    | cons y ys =>
      simp only [List.map_cons, separated_cons, List.cons_append, List.append_assoc,
        List.cons.injEq, true_and] at heq
      -- Behind either item there is a mark, so the items are the same and so is what follows.
      obtain ⟨rfl, hrest⟩ :=
        h.unique (ends_separated (by decide) _ _) (ends_separated (by decide) _ _) heq
      obtain ⟨rfl, hmore⟩ := ih hrest
      exact ⟨rfl, hmore⟩

/-- An empty list can be told from the others because no item starts with a mark. -/
theorem legible_list (h : Legible render)
    (hfirst : ∀ x, ∃ c ∈ (render x).toList.head?, ¬ IsMark c) : Legible (list render) := by
  have hne : ∀ {x : α} {xs : List α} {s t : List Char},
      ']' :: s ≠ (joined ((x :: xs).map render)).toList ++ t := by
    intro x xs s t heq
    obtain ⟨c, hc, hmark⟩ := hfirst x
    rw [List.map_cons, toList_joined_cons, List.append_assoc] at heq
    obtain ⟨more, htext⟩ := List.head?_eq_some_iff.mp hc
    rw [htext] at heq
    obtain ⟨rfl, -⟩ := List.cons.inj heq
    exact absurd hmark (by decide)
  constructor
  intro xs ys s t _ _ heq
  have hbody : (joined (xs.map render)).toList ++ ']' :: s =
      (joined (ys.map render)).toList ++ ']' :: t := by
    simpa [list] using heq
  cases xs with
  | nil =>
    cases ys with
    | nil => exact ⟨rfl, (List.cons.inj hbody).2⟩
    | cons y ys => exact absurd hbody hne
  | cons x xs =>
    cases ys with
    | nil => exact absurd hbody.symm hne
    | cons y ys =>
      -- With a separator in front of the first items as well, all items are alike.
      apply separated_map_inj h
      simpa [toList_joined_cons] using hbody

end

/-! ### Records -/

section

variable {ρ : Type}

/-- A member of a record whose text is legible. -/
structure RecordMember (ρ : Type) where
  label : String
  {α : Type}
  get : ρ → α
  render : α → String
  legible : Legible render

/-- The label and the text of the member. -/
def RecordMember.entry (m : RecordMember ρ) (x : ρ) : String × String :=
  (m.label, m.render (m.get x))

/-- The members of a record, as they are written behind its title. -/
def memberTexts (members : List (RecordMember ρ)) (x : ρ) : List String :=
  (members.map fun m => m.entry x).map fun e => e.1 ++ ": " ++ e.2

theorem memberTexts_cons (m : RecordMember ρ) (members : List (RecordMember ρ)) (x : ρ) :
    memberTexts (m :: members) x =
      (m.label ++ ": " ++ m.render (m.get x)) :: memberTexts members x := rfl

/-- The members can be told from the separators in front of them and from their labels. -/
theorem separated_memberTexts_inj (members : List (RecordMember ρ)) {x y : ρ} {s t : List Char}
    (heq : separated (memberTexts members x) ++ '}' :: s =
      separated (memberTexts members y) ++ '}' :: t) :
    (∀ m ∈ members, m.get x = m.get y) ∧ s = t := by
  induction members with
  | nil => exact ⟨nofun, (List.cons.inj heq).2⟩
  | cons m members ih =>
    simp only [memberTexts_cons, separated_cons, String.toList_append, List.cons_append,
      List.append_assoc, List.cons.injEq, true_and, List.append_cancel_left_eq] at heq
    obtain ⟨hget, hrest⟩ :=
      m.legible.unique (ends_separated (by decide) _ _) (ends_separated (by decide) _ _) heq
    obtain ⟨hothers, hmore⟩ := ih hrest
    exact ⟨List.forall_mem_cons.mpr ⟨hget, hothers⟩, hmore⟩

/-- A record is legible if its members determine it. It ends with its own bracket, so what stands
behind it does not count. -/
theorem legible_record (title : String) (members : List (RecordMember ρ))
    (hext : ∀ x y : ρ, (∀ m ∈ members, m.get x = m.get y) → x = y) :
    Legible fun x => record title (members.map fun m => m.entry x) := by
  constructor
  intro x y s t _ _ heq
  have hbody : (joined (memberTexts members x)).toList ++ '}' :: s =
      (joined (memberTexts members y)).toList ++ '}' :: t := by
    simpa [record, memberTexts] using heq
  have hseparated : separated (memberTexts members x) ++ '}' :: s =
      separated (memberTexts members y) ++ '}' :: t := by
    cases members with
    | nil => exact hbody
    | cons m members =>
      simp only [memberTexts_cons, toList_joined_cons] at hbody
      simp only [memberTexts_cons, separated_cons, List.cons_append, hbody]
  obtain ⟨hget, hrest⟩ := separated_memberTexts_inj members hseparated
  exact ⟨hext x y hget, hrest⟩

/-- A record starts like its title. -/
theorem head?_record {title : String} {c : Char} (htitle : title.toList.head? = some c)
    (members : List (String × String)) : (record title members).toList.head? = some c := by
  obtain ⟨more, htitle⟩ := List.head?_eq_some_iff.mp htitle
  simp [record, htitle]

end

end Provisioning.Rendering
