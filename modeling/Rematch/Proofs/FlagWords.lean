import Rematch.Build
import Rematch.Proofs.Letters

/-! # Sets of options as words

A set of options is held as a word of bits and written as a word of letters. Each tells the set: no two
options share a bit (`Named.Apart`), and none shares its letter. So the bits of a union are those of
either set, and a text that is put together from two is read as what either of them says
(`words_tell_sets`). -/

namespace Rematch

/-- Every option has a bit, and shares it with no other. -/
structure Named.Apart (α : Type) [Named α] : Prop where
  ne_zero : ∀ a : α, bit a ≠ 0
  disjoint : ∀ a b : α, a ≠ b → bit a &&& bit b = 0

namespace OptionSet
variable {α : Type} [Named α] (s t : OptionSet α)

theorem getLsbD_foldl (as : List α) (w : UInt32) (i : Nat) :
    (as.foldl (fun w a => w ||| Named.bit a) w).toBitVec.getLsbD i =
      (w.toBitVec.getLsbD i || as.any fun a => (Named.bit a).toBitVec.getLsbD i) := by
  induction as generalizing w with
  | nil => simp
  | cons a as ih => rw [List.foldl_cons, ih, UInt32.toBitVec_or, BitVec.getLsbD_or, List.any_cons,
      Bool.or_assoc]

/-- The word of a set has the bits of its members. -/
theorem getLsbD_bits {i : Nat} : s.bits.toBitVec.getLsbD i = true ↔
    ∃ a, s.has a = true ∧ (Named.bit a).toBitVec.getLsbD i = true := by
  rw [bits, getLsbD_foldl, UInt32.toBitVec_zero, BitVec.getLsbD_zero, Bool.false_or, List.any_eq_true]
  simp only [mem_toList]

theorem bits_union : (s ∪ t).bits = s.bits ||| t.bits := by
  refine UInt32.toBitVec_inj.1 (BitVec.eq_of_getLsbD_eq fun i _ => Bool.eq_iff_iff.2 ?_)
  rw [UInt32.toBitVec_or, BitVec.getLsbD_or, Bool.or_eq_true]
  simp only [getLsbD_bits, has_union, Bool.or_eq_true, or_and_right, exists_or]

theorem ofBits_bits (h : Named.Apart α) : ofBits s.bits = s := by
  refine OptionSet.ext fun a => Bool.eq_iff_iff.2 ?_
  have hsub : (ofBits s.bits : OptionSet α).has a = true ↔
      s.bits &&& Named.bit a = Named.bit a := decide_eq_true_iff
  rw [hsub]
  constructor
  · intro hw
    -- some bit of the option is in the word, and no other option can have put it there
    obtain ⟨i, hi⟩ : ∃ i, (Named.bit a).toBitVec.getLsbD i = true := by
      refine Classical.byContradiction fun hno => h.ne_zero a (UInt32.toBitVec_inj.1 ?_)
      refine BitVec.eq_of_getLsbD_eq fun i _ => ?_
      rw [UInt32.toBitVec_zero, BitVec.getLsbD_zero, Bool.eq_false_iff]
      exact fun hi => hno ⟨i, hi⟩
    rw [← hw, UInt32.toBitVec_and, BitVec.getLsbD_and, Bool.and_eq_true, getLsbD_bits] at hi
    obtain ⟨⟨b, hb, hbi⟩, hai⟩ := hi
    by_cases hab : a = b
    · exact hab ▸ hb
    · have hboth := congrArg (·.toBitVec.getLsbD i) (h.disjoint a b hab)
      simp [hai, hbi] at hboth
  · intro ha
    refine UInt32.toBitVec_inj.1 (BitVec.eq_of_getLsbD_eq fun i _ => Bool.eq_iff_iff.2 ?_)
    rw [UInt32.toBitVec_and, BitVec.getLsbD_and, Bool.and_eq_true, getLsbD_bits]
    exact ⟨And.right, fun hi => ⟨⟨a, ha, hi⟩, hi⟩⟩

theorem ofBits?_bits (h : Named.Apart α) : ofBits? s.bits = some s := by
  rw [ofBits?, ofBits_bits s h, if_pos rfl]

end OptionSet

namespace Flags
variable {a b : String} {c : Char} {cs ds : List Char} {s : Flags} {e : Error}

theorem apart : Named.Apart Flag where
  ne_zero a := by cases a <;> decide
  disjoint a b := by cases a <;> cases b <;> decide

/-- The letters of all options, in the order of the table. -/
def alphabet : List Char := (Named.all : List Flag).map Flag.letter

theorem alphabet_eq : alphabet = "imsxJfBnUuWDSA".toList := by decide

theorem nodup_alphabet : alphabet.Nodup := by decide

theorem letters_sublist (s : Flags) : (letters s).Sublist alphabet :=
  List.filter_sublist.map _

theorem named_append (cs ds : List Char) : named (cs ++ ds) = named cs ∪ named ds := by
  refine OptionSet.ext fun f => Bool.eq_iff_iff.2 ?_
  rw [OptionSet.has_union, Bool.or_eq_true, has_named, has_named, has_named, List.mem_append]

theorem named_congr (h : ∀ c, c ∈ cs ↔ c ∈ ds) : named cs = named ds :=
  OptionSet.ext fun f => Bool.eq_iff_iff.2 (by rw [has_named, has_named, h])

/-- Reading fails just with the first character that is no letter. -/
theorem ofLetters_eq_error_iff : ofLetters cs = .error c ↔
    ∃ known rest, cs = known ++ c :: rest ∧ (∀ d ∈ known, Flag.IsLetter d) ∧ ¬ Flag.IsLetter c := by
  constructor
  · intro h
    rcases letters_or_first cs with hcs | ⟨known, d, rest, rfl, hknown, hd⟩
    · rw [ofLetters_of_letters hcs] at h; cases h
    · rw [ofLetters_of_not_letter hknown hd] at h
      cases h
      exact ⟨known, rest, rfl, hknown, hd⟩
  · rintro ⟨known, rest, rfl, hknown, hc⟩
    exact ofLetters_of_not_letter hknown hc

theorem read_eq_ok_iff : read a = .ok s ↔ (∀ c ∈ a.toList, Flag.IsLetter c) ∧ s = named a.toList := by
  rw [read, ← ofLetters_eq_ok_iff]
  cases ofLetters a.toList with
  | ok f => constructor <;> rintro ⟨⟩ <;> rfl
  | error c => constructor <;> rintro ⟨⟩

theorem read_eq_error_iff : read a = .error e ↔ ∃ known c rest, a.toList = known ++ c :: rest ∧
    (∀ d ∈ known, Flag.IsLetter d) ∧ ¬ Flag.IsLetter c ∧ e = .invalidFlag c := by
  have hread : read a = .error e ↔ ∃ c, ofLetters a.toList = .error c ∧ e = .invalidFlag c := by
    rw [read]
    cases ofLetters a.toList with
    | ok f =>
      constructor
      · rintro ⟨⟩
      · rintro ⟨c, ⟨⟩, -⟩
    | error c =>
      constructor
      · rintro ⟨⟩
        exact ⟨c, rfl, rfl⟩
      · rintro ⟨d, ⟨⟩, rfl⟩
        rfl
  simp only [hread, ofLetters_eq_error_iff]
  constructor
  · rintro ⟨c, ⟨known, rest, hcs, hknown, hc⟩, rfl⟩
    exact ⟨known, c, rest, hcs, hknown, hc, rfl⟩
  · rintro ⟨known, c, rest, hcs, hknown, hc, rfl⟩
    exact ⟨c, ⟨known, rest, hcs, hknown, hc⟩, rfl⟩

theorem read_append : read (a ++ b) = .ok s ↔
    ∃ f g, read a = .ok f ∧ read b = .ok g ∧ s = f ∪ g := by
  simp only [read_eq_ok_iff, String.toList_append, List.forall_mem_append, named_append]
  constructor
  · rintro ⟨⟨ha, hb⟩, rfl⟩
    exact ⟨_, _, ⟨ha, rfl⟩, ⟨hb, rfl⟩, rfl⟩
  · rintro ⟨_, _, ⟨ha, rfl⟩, ⟨hb, rfl⟩, rfl⟩
    exact ⟨⟨ha, hb⟩, rfl⟩

theorem read_congr (h : ∀ c, c ∈ a.toList ↔ c ∈ b.toList) : read a = .ok s ↔ read b = .ok s := by
  simp only [read_eq_ok_iff, h, named_congr h]

theorem toList_text (s : Flags) : (text s).toList = letters s := String.toList_ofList

theorem read_text (s : Flags) : read (text s) = .ok s := by
  rw [read, toList_text, ofLetters_letters]; rfl

/-- What is read from a word is written with the letters of the word. -/
theorem mem_text (h : read a = .ok s) : c ∈ (text s).toList ↔ c ∈ a.toList := by
  obtain ⟨ha, rfl⟩ := read_eq_ok_iff.1 h
  rw [toList_text]
  constructor
  · intro hc
    obtain ⟨f, rfl⟩ := isLetter_of_mem_letters hc
    exact has_named.1 (mem_letters.1 hc)
  · intro hc
    obtain ⟨f, rfl⟩ := ha c hc
    exact mem_letters.2 (has_named.2 hc)

/-- **Words tell sets of options.** A text in two parts is read if both parts are, as the options of
either; what counts is which letters there are, and not their order and number. It is refused with the
first character that is no letter, whatever stands around that. Every set is written as a text that is
read as the set, with each letter once and in the order of the table. Bits tell sets too: those of either
set are those of the union. -/
theorem words_tell_sets (a b : String) :
    (∀ s, read (a ++ b) = .ok s ↔ ∃ f g, read a = .ok f ∧ read b = .ok g ∧ s = f ∪ g) ∧
    ((∀ c, c ∈ a.toList ↔ c ∈ b.toList) → ∀ s, read a = .ok s ↔ read b = .ok s) ∧
    (∀ e, read (a ++ b) = .error e ↔ ∃ known c rest, (a ++ b).toList = known ++ c :: rest ∧
      (∀ d ∈ known, Flag.IsLetter d) ∧ ¬ Flag.IsLetter c ∧ e = .invalidFlag c) ∧
    (∀ s, read (text s) = .ok s) ∧
    (∀ s, read a = .ok s → (text s).toList.Nodup ∧
      (text s).toList.Sublist "imsxJfBnUuWDSA".toList ∧ ∀ c, c ∈ (text s).toList ↔ c ∈ a.toList) ∧
    (∀ c, Flag.IsLetter c ↔ c ∈ "imsxJfBnUuWDSA".toList) ∧
    ∀ f g : Flags, (f ∪ g).bits = f.bits ||| g.bits ∧ OptionSet.ofBits? f.bits = some f := by
  refine ⟨fun s => read_append, fun h s => read_congr h, fun e => read_eq_error_iff, read_text,
    fun s hs => ⟨?_, ?_, fun c => mem_text hs⟩, fun c => ?_,
    fun f g => ⟨OptionSet.bits_union f g, OptionSet.ofBits?_bits f apart⟩⟩
  · rw [toList_text]
    exact nodup_alphabet.sublist (letters_sublist s)
  · rw [toList_text, ← alphabet_eq]
    exact letters_sublist s
  · rw [← alphabet_eq, alphabet, List.mem_map]
    exact ⟨fun ⟨f, hf⟩ => ⟨f, Named.mem_all f, hf⟩, fun ⟨f, _, hf⟩ => ⟨f, hf⟩⟩

/-- Letters twice and out of order, and with unknown ones among them. -/
theorem words_tell_sets_shuffled :
    read ("uxu" ++ "xi") = .ok (.ofList [.caseless, .extended, .utf]) ∧
    text (.ofList [.caseless, .extended, .utf]) = "ixu" ∧
    (∀ s, read "uxuxi" = .ok s ↔ read "ixu" = .ok s) ∧
    (text (.ofList [.caseless, .extended, .utf])).toList.Nodup ∧
    read ("uq" ++ "iz") = .error (.invalidFlag 'q') := by
  have hread : read ("uxu" ++ "xi") = .ok (.ofList [.caseless, .extended, .utf]) :=
    read_eq_ok_iff.2 ⟨Flag.isLetter_of_all (by decide), OptionSet.ext fun f => by cases f <;> rfl⟩
  have hsame : ∀ c, c ∈ "uxuxi".toList ↔ c ∈ "ixu".toList := by
    intro c
    show c ∈ ['u', 'x', 'u', 'x', 'i'] ↔ c ∈ ['i', 'x', 'u']
    grind
  exact ⟨hread, by decide, (words_tell_sets "uxuxi" "ixu").2.1 hsame,
    ((words_tell_sets "uxuxi" "").2.2.2.2.1 _ hread).1,
    ((words_tell_sets "uq" "iz").2.2.1 _).2 ⟨['u'], 'q', ['i', 'z'], rfl,
      Flag.isLetter_of_all (by decide), Flag.ofLetter?_eq_none_iff.1 rfl, rfl⟩⟩

end Flags

end Rematch
