import AxisGraph.Text.Sequence
import Mathlib.Data.List.Basic

/-!
Reading what was written. A value can be read off the front of a text if the text determines both
the value and what comes after it. For a word this takes a character after it that cannot be part of
the word, and what is put together from parts is read part by part.
-/

namespace AxisGraph.Text

/-- The text does not begin with a character of the class. -/
def Breaks (inside : Char → Prop) (rest : List Char) : Prop :=
  ∀ c ∈ rest.head?, ¬inside c

@[simp]
theorem breaks_nil (inside : Char → Prop) : Breaks inside [] := by
  simp [Breaks]

@[simp]
theorem breaks_cons (inside : Char → Prop) (c : Char) (rest : List Char) :
    Breaks inside (c :: rest) ↔ ¬inside c := by
  simp [Breaks]

/-- Wherever a written value is followed by a text that does not begin with a character of the
class, it is told apart from every other value and from what follows. -/
def ReadsOff {α : Type} (valid : α → Prop) (write : α → String) (inside : Char → Prop) : Prop :=
  ∀ a b, valid a → valid b → ∀ s t, Breaks inside s → Breaks inside t →
    (write a).toList ++ s = (write b).toList ++ t → a = b ∧ s = t

theorem ReadsOff.injective {α : Type} {valid : α → Prop} {write : α → String}
    {inside : Char → Prop} (h : ReadsOff valid write inside) {a b : α} (ha : valid a)
    (hb : valid b) (heq : write a = write b) : a = b :=
  (h a b ha hb [] [] (breaks_nil inside) (breaks_nil inside) (by rw [heq])).1

/-- What is closed by a character that cannot be part of it is read together with what closes it. -/
theorem ReadsOff.upTo {α : Type} {valid : α → Prop} {write : α → String} {inside : Char → Prop}
    (h : ReadsOff valid write inside) {a b : α} (ha : valid a) (hb : valid b) {closing : String}
    (hclosing : ∃ c ∈ closing.toList.head?, ¬inside c) {s t : List Char}
    (heq : (write a).toList ++ (closing.toList ++ s) =
      (write b).toList ++ (closing.toList ++ t)) : a = b ∧ s = t := by
  have hbreaks : ∀ rest, Breaks inside (closing.toList ++ rest) := by
    obtain ⟨c, hhead, hc⟩ := hclosing
    rw [Option.mem_def] at hhead
    intro rest
    simpa [Breaks, hhead] using hc
  obtain ⟨hvalue, hrest⟩ := h a b ha hb _ _ (hbreaks s) (hbreaks t) heq
  exact ⟨hvalue, List.append_cancel_left hrest⟩

theorem split_at_break {inside : Char → Prop} (xs ys s t : List Char) (hxs : ∀ c ∈ xs, inside c)
    (hys : ∀ c ∈ ys, inside c) (hs : Breaks inside s) (ht : Breaks inside t)
    (h : xs ++ s = ys ++ t) : xs = ys ∧ s = t := by
  induction xs generalizing ys with
  | nil =>
    cases ys with
    | nil => exact ⟨rfl, h⟩
    | cons y ys =>
      rw [List.nil_append] at h
      subst s
      exact absurd (hys y List.mem_cons_self) ((breaks_cons inside y _).mp hs)
  | cons x xs ih =>
    obtain ⟨hx, hxs⟩ := List.forall_mem_cons.mp hxs
    cases ys with
    | nil =>
      rw [List.nil_append] at h
      subst t
      exact absurd hx ((breaks_cons inside x _).mp ht)
    | cons y ys =>
      simp only [List.cons_append, List.cons.injEq] at h
      obtain ⟨rfl, h⟩ := h
      obtain ⟨rfl, hrest⟩ := ih ys hxs (List.forall_mem_cons.mp hys).2 h
      exact ⟨rfl, hrest⟩

theorem readsOff_word (inside : Char → Prop) :
    ReadsOff (fun word : String => ∀ c ∈ word.toList, inside c) id inside := by
  intro a b ha hb s t hs ht h
  obtain ⟨hword, hrest⟩ := split_at_break a.toList b.toList s t ha hb hs ht h
  exact ⟨String.toList_inj.mp hword, hrest⟩

def IsDigit (c : Char) : Prop := c.isDigit = true

instance : DecidablePred IsDigit := fun c => inferInstanceAs (Decidable (c.isDigit = true))

theorem isDigit_of_mem_number {n : Nat} {c : Char} (h : c ∈ (toString n).toList) : IsDigit c := by
  have hrepr : c ∈ Nat.toDigits 10 n := by
    rw [← Nat.toList_repr]
    exact h
  exact Nat.isDigit_of_mem_toDigits (by decide) (by decide) hrepr

theorem number_injective {m n : Nat} (h : toString m = toString n) : m = n := by
  have hdigits : Nat.toDigits 10 m = Nat.toDigits 10 n := by
    rw [← Nat.toList_repr, ← Nat.toList_repr]
    exact congrArg String.toList h
  calc
    m = Nat.ofDigitChars 10 (Nat.toDigits 10 m) 0 := Nat.ofDigitChars_ten_toDigits.symm
    _ = Nat.ofDigitChars 10 (Nat.toDigits 10 n) 0 := by rw [hdigits]
    _ = n := Nat.ofDigitChars_ten_toDigits

theorem readsOff_number : ReadsOff (fun _ => True) (fun n : Nat => toString n) IsDigit := by
  intro a b _ _ s t hs ht h
  obtain ⟨hword, hrest⟩ := readsOff_word IsDigit (toString a) (toString b)
    (fun _ => isDigit_of_mem_number) (fun _ => isDigit_of_mem_number) s t hs ht h
  exact ⟨number_injective hword, hrest⟩

/-- The items after the first one of a sequence. -/
def furtherItems : List String → String
  | [] => ""
  | item :: items => ", " ++ item ++ furtherItems items

@[simp]
theorem commaSeparated_nil : commaSeparated [] = "" :=
  String.intercalate_nil

@[simp]
theorem commaSeparated_cons (item : String) (items : List String) :
    commaSeparated (item :: items) = item ++ furtherItems items := by
  induction items generalizing item with
  | nil => simp [commaSeparated, furtherItems]
  | cons next items ih =>
    have hcons : commaSeparated (item :: next :: items) =
        item ++ ", " ++ commaSeparated (next :: items) := String.intercalate_cons_cons
    rw [hcons, ih, furtherItems]
    simp only [String.append_assoc]

theorem mem_furtherItems {items : List String} {c : Char}
    (h : c ∈ (furtherItems items).toList) :
    c ∈ ", ".toList ∨ ∃ item ∈ items, c ∈ item.toList := by
  induction items with
  | nil => simp [furtherItems] at h
  | cons item items ih =>
    simp only [furtherItems, String.toList_append, List.mem_append] at h
    rcases h with (hseparator | hitem) | hrest
    · exact .inl hseparator
    · exact .inr ⟨item, List.mem_cons_self, hitem⟩
    · exact (ih hrest).imp_right fun ⟨other, hmem, hc⟩ => ⟨other, List.mem_cons_of_mem _ hmem, hc⟩

/-- A sequence is made of what its items are made of and of separators. -/
theorem mem_commaSeparated {items : List String} {c : Char}
    (h : c ∈ (commaSeparated items).toList) :
    c ∈ ", ".toList ∨ ∃ item ∈ items, c ∈ item.toList := by
  cases items with
  | nil => simp at h
  | cons item items =>
    rw [commaSeparated_cons, String.toList_append, List.mem_append] at h
    rcases h with hitem | hrest
    · exact .inr ⟨item, List.mem_cons_self, hitem⟩
    · refine (mem_furtherItems hrest).imp_right ?_
      rintro ⟨other, hmem, hc⟩
      exact ⟨other, List.mem_cons_of_mem item hmem, hc⟩

section Sequences

variable {α : Type} {valid : α → Prop} {write : α → String} {inside first : Char → Prop}

/-- The characters that go on with the last item of a sequence, begin an item or announce one. -/
def InSequence (inside first : Char → Prop) (c : Char) : Prop :=
  inside c ∨ first c ∨ c = ','

instance [DecidablePred inside] [DecidablePred first] :
    DecidablePred (InSequence inside first) :=
  fun c => inferInstanceAs (Decidable (inside c ∨ first c ∨ c = ','))

theorem Breaks.of_sequence {rest : List Char} (h : Breaks (InSequence inside first) rest) :
    Breaks inside rest :=
  fun c hc hinside => h c hc (.inl hinside)

theorem breaks_furtherItems (items : List String) (rest : List Char) (hcomma : ¬inside ',')
    (hrest : Breaks (InSequence inside first) rest) :
    Breaks inside ((furtherItems items).toList ++ rest) := by
  cases items with
  | nil => simpa [furtherItems] using hrest.of_sequence
  | cons item items => simpa [furtherItems] using hcomma

/-- A further item begins with a comma, so no text that may follow the sequence does. -/
theorem ne_furtherItems_cons (item : String) (items : List String) (rest other : List Char)
    (hrest : Breaks (InSequence inside first) rest) :
    rest ≠ (furtherItems (item :: items)).toList ++ other := by
  rintro rfl
  exact hrest ',' (by simp [furtherItems]) (.inr (.inr rfl))

theorem ReadsOff.furtherItems (h : ReadsOff valid write inside) (hcomma : ¬inside ',') :
    ReadsOff (fun values : List α => ∀ a ∈ values, valid a)
      (fun values => Text.furtherItems (values.map write)) (InSequence inside first) := by
  intro as
  induction as with
  | nil =>
    intro bs _ hbs s t hs ht heq
    cases bs with
    | nil => simpa [Text.furtherItems] using heq
    | cons b bs => exact absurd heq (ne_furtherItems_cons (write b) _ s t hs)
  | cons a as ih =>
    intro bs has hbs s t hs ht heq
    cases bs with
    | nil => exact absurd heq.symm (ne_furtherItems_cons (write a) _ t s ht)
    | cons b bs =>
      obtain ⟨ha, has'⟩ := List.forall_mem_cons.mp has
      obtain ⟨hb, hbs'⟩ := List.forall_mem_cons.mp hbs
      simp only [List.map_cons, Text.furtherItems, String.toList_append, List.append_assoc,
        List.append_cancel_left_eq] at heq
      obtain ⟨rfl, htail⟩ := h a b ha hb _ _ (breaks_furtherItems _ s hcomma hs)
        (breaks_furtherItems _ t hcomma ht) heq
      obtain ⟨rfl, hrest⟩ := ih bs has' hbs' s t hs ht htail
      exact ⟨rfl, hrest⟩

/-- Items that can be read off up to a comma make a sequence that can be read off, if they show by
their first character that they are there. -/
theorem ReadsOff.commaSeparated (h : ReadsOff valid write inside) (hcomma : ¬inside ',')
    (hfirst : ∀ a, valid a → ∃ c, (write a).toList.head? = some c ∧ first c) :
    ReadsOff (fun values : List α => ∀ a ∈ values, valid a)
      (fun values => Text.commaSeparated (values.map write)) (InSequence inside first) := by
  have hne : ∀ (a : α) (as : List α) (s t : List Char), valid a →
      Breaks (InSequence inside first) s →
      s ≠ (Text.commaSeparated (List.map write (a :: as))).toList ++ t := by
    rintro a as s t ha hs rfl
    obtain ⟨c, hhead, hc⟩ := hfirst a ha
    exact hs c (by simp [hhead]) (.inr (.inl hc))
  -- If one of the sequences is empty, what follows it would begin like an item of the other.
  intro as bs has hbs s t hs ht heq
  cases as with
  | nil =>
    cases bs with
    | nil => simpa using heq
    | cons b bs =>
      refine absurd ?_ (hne b bs s t (hbs b List.mem_cons_self) hs)
      simpa using heq
  | cons a as =>
    cases bs with
    | nil =>
      refine absurd ?_ (hne a as t s (has a List.mem_cons_self) ht)
      simpa using heq.symm
    | cons b bs =>
      obtain ⟨ha, has'⟩ := List.forall_mem_cons.mp has
      obtain ⟨hb, hbs'⟩ := List.forall_mem_cons.mp hbs
      simp only [List.map_cons, commaSeparated_cons, String.toList_append, List.append_assoc]
        at heq
      obtain ⟨rfl, htail⟩ := h a b ha hb _ _ (breaks_furtherItems _ s hcomma hs)
        (breaks_furtherItems _ t hcomma ht) heq
      obtain ⟨rfl, hrest⟩ := h.furtherItems hcomma as bs has' hbs' s t hs ht htail
      exact ⟨rfl, hrest⟩

end Sequences

/-- The text has no line break. -/
def Unbroken (text : String) : Prop := '\n' ∉ text.toList

instance : DecidablePred Unbroken := fun text => inferInstanceAs (Decidable ('\n' ∉ text.toList))

@[simp]
theorem unbroken_append (text other : String) :
    Unbroken (text ++ other) ↔ Unbroken text ∧ Unbroken other := by
  simp [Unbroken]

theorem unbroken_number (n : Nat) : Unbroken (toString n) :=
  fun hmem => absurd (isDigit_of_mem_number hmem) (by decide)

@[simp]
theorem unbroken_furtherItems_iff (items : List String) :
    Unbroken (furtherItems items) ↔ ∀ item ∈ items, Unbroken item := by
  have hcomma : Unbroken ", " := by simp [Unbroken]
  induction items with
  | nil => simp [Unbroken, furtherItems]
  | cons item items ih => simp [furtherItems, hcomma, ih]

/-- Separators break no line, so a sequence is broken exactly where an item is. -/
@[simp]
theorem unbroken_commaSeparated_iff (items : List String) :
    Unbroken (commaSeparated items) ↔ ∀ item ∈ items, Unbroken item := by
  cases items with
  | nil => simp [Unbroken]
  | cons item items => simp

theorem unbroken_commaSeparated {α : Type} {write : α → String} (values : List α)
    (h : ∀ value ∈ values, Unbroken (write value)) :
    Unbroken (commaSeparated (values.map write)) :=
  (unbroken_commaSeparated_iff _).mpr (List.forall_mem_map.mpr h)

/-- The text of lines, each with its line break. -/
def linesText (lines : List String) : String := String.join (lines.map (· ++ "\n"))

theorem linesText_injective (lines others : List String) (hlines : ∀ line ∈ lines, Unbroken line)
    (hothers : ∀ line ∈ others, Unbroken line) (h : linesText lines = linesText others) :
    lines = others := by
  replace h := congrArg String.toList h
  simp only [linesText, String.toList_join, List.flatMap_map, String.toList_append] at h
  have hword : ∀ (line : String), Unbroken line → ∀ c ∈ line.toList, c ≠ '\n' :=
    fun line hline c hc heq => hline (heq ▸ hc)
  induction lines generalizing others with
  | nil =>
    cases others with
    | nil => rfl
    | cons other others => simp at h
  | cons line lines ih =>
    cases others with
    | nil => simp at h
    | cons other others =>
      obtain ⟨hline, hlines'⟩ := List.forall_mem_cons.mp hlines
      obtain ⟨hother, hothers'⟩ := List.forall_mem_cons.mp hothers
      simp only [List.flatMap_cons, List.append_assoc] at h
      obtain ⟨rfl, hrest⟩ := (readsOff_word (· ≠ '\n')).upTo (hword line hline)
        (hword other hother) ⟨'\n', by simp⟩ h
      rw [ih others hlines' hothers' hrest]

end AxisGraph.Text
