import Rematch.Flags

/-! # Words of letters

A word stands for the options whose letters occur in it, and for nothing if it has any other character.
Reading a word comes down to that (`ofLetters_eq_ok_iff`); a set of options is written as a word that
stands for it (`ofLetters_letters`). -/

namespace Rematch

/-- The character is the letter of an option. -/
def Flag.IsLetter (c : Char) : Prop := ∃ f : Flag, f.letter = c

namespace Flag
variable {c : Char} {f : Flag}

theorem ofLetter?_eq_some_iff : ofLetter? c = some f ↔ f.letter = c :=
  ⟨letter_of_ofLetter?, fun h => h ▸ ofLetter?_letter f⟩

theorem isSome_ofLetter? : (ofLetter? c).isSome = true ↔ IsLetter c := by
  rw [Option.isSome_iff_exists]
  exact exists_congr fun f => ofLetter?_eq_some_iff

theorem ofLetter?_eq_none_iff : ofLetter? c = none ↔ ¬ IsLetter c := by
  rw [← isSome_ofLetter?, Option.not_isSome_iff_eq_none]

instance : DecidablePred IsLetter := fun _ => decidable_of_iff _ isSome_ofLetter?

theorem isLetter_of_all {cs : List Char} (h : cs.all (fun c => (ofLetter? c).isSome) = true) :
    ∀ c ∈ cs, IsLetter c :=
  fun c hc => isSome_ofLetter?.1 (List.all_eq_true.1 h c hc)

theorem letter_injective {f g : Flag} (h : f.letter = g.letter) : f = g := by
  have hg := ofLetter?_letter g
  rw [← h, ofLetter?_letter] at hg
  exact Option.some.inj hg

end Flag

theorem OptionSet.isEmpty_iff {α : Type} [Named α] {s : OptionSet α} : s.isEmpty = true ↔ s = ∅ := by
  rw [isEmpty, List.isEmpty_iff, List.eq_nil_iff_forall_not_mem]
  constructor
  · intro h
    refine OptionSet.ext fun a => ?_
    rw [has_empty, Bool.eq_false_iff]
    exact fun ha => h a ((mem_toList s a).2 ha)
  · rintro rfl a ha
    exact Bool.false_ne_true ((mem_toList _ a).1 ha)

namespace Flags
variable {c : Char} {cs : List Char} {s : Flags}

/-- The options whose letters occur in a word. -/
def named (cs : List Char) : Flags := ⟨fun f => cs.contains f.letter⟩

theorem has_named {f : Flag} : (named cs).has f = true ↔ f.letter ∈ cs := List.contains_iff_mem

theorem named_cons (f : Flag) (cs : List Char) : named (f.letter :: cs) = (named cs).insert f := by
  refine OptionSet.ext fun g => Bool.eq_iff_iff.2 ?_
  rw [OptionSet.has_insert, Bool.or_eq_true, decide_eq_true_eq, has_named, has_named, List.mem_cons]
  exact or_congr_left ⟨Flag.letter_injective, congrArg Flag.letter⟩

theorem ofLetters_cons (f : Flag) (cs : List Char) :
    ofLetters (f.letter :: cs) = (ofLetters cs).map (·.insert f) := by
  rw [ofLetters, Flag.ofLetter?_letter]

theorem ofLetters_of_letters (h : ∀ c ∈ cs, Flag.IsLetter c) : ofLetters cs = .ok (named cs) := by
  induction cs with
  | nil => rfl
  | cons c cs ih =>
    obtain ⟨f, rfl⟩ := h c List.mem_cons_self
    rw [ofLetters_cons, ih fun d hd => h d (List.mem_cons_of_mem _ hd), named_cons]
    rfl

/-- Reading stops at the first character that is no letter. -/
theorem ofLetters_of_not_letter {known rest : List Char} (h : ∀ d ∈ known, Flag.IsLetter d)
    (hc : ¬ Flag.IsLetter c) : ofLetters (known ++ c :: rest) = .error c := by
  induction known with
  | nil => rw [List.nil_append, ofLetters, Flag.ofLetter?_eq_none_iff.2 hc]
  | cons d known ih =>
    obtain ⟨f, rfl⟩ := h d List.mem_cons_self
    rw [List.cons_append, ofLetters_cons, ih fun e he => h e (List.mem_cons_of_mem _ he)]
    rfl

/-- A word has letters only, or there is a first character that is none. -/
theorem letters_or_first (cs : List Char) : (∀ c ∈ cs, Flag.IsLetter c) ∨
    ∃ known c rest, cs = known ++ c :: rest ∧ (∀ d ∈ known, Flag.IsLetter d) ∧ ¬ Flag.IsLetter c := by
  induction cs with
  | nil => exact .inl fun c hc => absurd hc List.not_mem_nil
  | cons c cs ih =>
    by_cases hc : Flag.IsLetter c
    · rcases ih with h | ⟨known, d, rest, rfl, hknown, hd⟩
      · exact .inl (List.forall_mem_cons.2 ⟨hc, h⟩)
      · exact .inr ⟨c :: known, d, rest, rfl, List.forall_mem_cons.2 ⟨hc, hknown⟩, hd⟩
    · exact .inr ⟨[], c, cs, rfl, fun d hd => absurd hd List.not_mem_nil, hc⟩

theorem ofLetters_eq_ok_iff : ofLetters cs = .ok s ↔ (∀ c ∈ cs, Flag.IsLetter c) ∧ s = named cs := by
  constructor
  · intro h
    rcases letters_or_first cs with hcs | ⟨known, c, rest, rfl, hknown, hc⟩
    · rw [ofLetters_of_letters hcs] at h
      exact ⟨hcs, (Except.ok.inj h).symm⟩
    · rw [ofLetters_of_not_letter hknown hc] at h; cases h
  · rintro ⟨hcs, rfl⟩
    exact ofLetters_of_letters hcs

theorem mem_letters {f : Flag} : f.letter ∈ letters s ↔ s.has f = true := by
  rw [letters, List.mem_map]
  constructor
  · rintro ⟨g, hg, heq⟩
    obtain rfl := Flag.letter_injective heq
    exact (OptionSet.mem_toList s g).1 hg
  · exact fun hf => ⟨f, (OptionSet.mem_toList s f).2 hf, rfl⟩

theorem isLetter_of_mem_letters (h : c ∈ letters s) : Flag.IsLetter c := by
  obtain ⟨f, -, rfl⟩ := List.mem_map.1 h
  exact ⟨f, rfl⟩

@[simp] theorem named_letters (s : Flags) : named (letters s) = s :=
  OptionSet.ext fun _ => Bool.eq_iff_iff.2 (has_named.trans mem_letters)

theorem ofLetters_letters (s : Flags) : ofLetters (letters s) = .ok s :=
  ofLetters_eq_ok_iff.2 ⟨fun _ => isLetter_of_mem_letters, (named_letters s).symm⟩

/-- Only the empty word stands for no options. -/
theorem eq_nil_of_named_eq_empty (h : ∀ c ∈ cs, Flag.IsLetter c) (he : named cs = ∅) : cs = [] := by
  cases cs with
  | nil => rfl
  | cons c cs =>
    obtain ⟨f, rfl⟩ := h c List.mem_cons_self
    have hf : (named (f.letter :: cs)).has f = true := has_named.2 List.mem_cons_self
    rw [he] at hf
    cases hf

end Flags

end Rematch
