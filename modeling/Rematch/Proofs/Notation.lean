import Rematch.Build
import Rematch.Proofs.GroupText
import Rematch.Proofs.Letters

/-! # The notation of patterns

A text is read as a pattern by its first and its last slash. The byte of a slash occurs in no other
character, so that the last slash of the bytes is the last of the text (`isLastSlash_encode`), and cutting
in front of it and behind it splits no character (`parseCut?_eq`). What is written between slashes is
read back (`read_between`), and nothing else is read as a pattern whose expression could itself be
taken for such a notation (`eq_of_read_slashed`). -/

namespace Rematch

namespace Utf8

/-- The byte of a slash. -/
def slash : UInt8 := 0x2f

/-- A byte of one-byte characters is a whole character wherever it stands. -/
theorem encodeChar_eq_of_mem {c : Char} {x : UInt8} (hx : x ∈ String.utf8EncodeChar c)
    (hlt : x.toNat < 0x80) : String.utf8EncodeChar c = [x] := by
  obtain ⟨first, more, hc⟩ := List.exists_cons_of_ne_nil (String.utf8EncodeChar_ne_nil (c := c))
  obtain ⟨n, hn, hfirst, rfl⟩ := first_eq hc
  rw [hc] at hx ⊢
  rcases List.mem_cons.1 hx with rfl | hmem
  · match n, hn with
    | 0, _ => rfl
    | 1, _ | 2, _ | 3, _ => simp only [mark] at hfirst; omega
  · have := (trail_range hmem).1
    omega

theorem slash_mem_encodeChar {c : Char} : slash ∈ String.utf8EncodeChar c ↔ c = '/' := by
  constructor
  · intro h
    have hc : String.utf8EncodeChar c ++ [] = String.utf8EncodeChar '/' ++ [] := by
      rw [encodeChar_eq_of_mem h (by decide)]; rfl
    exact char_eq_of_append hc
  · rintro rfl
    decide

theorem slash_mem_encode {cs : List Char} : slash ∈ encode cs ↔ '/' ∈ cs := by
  rw [encode, List.mem_flatMap]
  constructor
  · rintro ⟨c, hc, h⟩
    exact slash_mem_encodeChar.1 h ▸ hc
  · exact fun h => ⟨_, h, slash_mem_encodeChar.2 rfl⟩

/-- The byte at the offset is a slash, and none behind it is. -/
structure IsLastSlash (b : Bytes) (stop : Nat) : Prop where
  here : b[stop]? = some slash
  later : slash ∉ b.drop (stop + 1)

/-- The offset of the last slash. -/
def lastSlash? : Bytes → Option Nat
  | [] => none
  | x :: b => ((lastSlash? b).map (· + 1)).or (if x = slash then some 0 else none)

theorem lastSlash?_eq_none_iff {b : Bytes} : lastSlash? b = none ↔ slash ∉ b := by
  induction b with
  | nil => exact ⟨fun _ => List.not_mem_nil, fun _ => rfl⟩
  | cons x b ih =>
    rw [lastSlash?, Option.or_eq_none_iff, Option.map_eq_none_iff, ih, List.mem_cons, not_or, and_comm]
    refine and_congr_left fun _ => ?_
    split
    · next hx => exact ⟨nofun, fun h => absurd hx.symm h⟩
    · next hx => exact ⟨fun _ => Ne.symm hx, fun _ => rfl⟩

theorem lastSlash?_eq_some_iff {b : Bytes} {stop : Nat} :
    lastSlash? b = some stop ↔ IsLastSlash b stop := by
  induction b generalizing stop with
  | nil => exact ⟨nofun, fun h => nomatch h.here⟩
  | cons x b ih =>
    rw [lastSlash?]
    cases stop with
    | zero =>
      have hnone := lastSlash?_eq_none_iff (b := b)
      constructor
      · intro h
        cases hb : lastSlash? b with
        | some j => rw [hb] at h; cases h
        | none =>
          rw [hb, Option.map_none, Option.none_or] at h
          split at h
          · next hx => exact ⟨congrArg some hx, hnone.1 hb⟩
          · cases h
      · rintro ⟨hx, hlater⟩
        rw [hnone.2 hlater, Option.map_none, Option.none_or, if_pos (Option.some.inj hx)]
    | succ stop =>
      have hiff : IsLastSlash (x :: b) (stop + 1) ↔ IsLastSlash b stop :=
        ⟨fun ⟨hx, hlater⟩ => ⟨hx, hlater⟩, fun ⟨hx, hlater⟩ => ⟨hx, hlater⟩⟩
      rw [hiff, ← ih]
      cases lastSlash? b with
      | some j => simp
      | none => simp

theorem isLastSlash_encode {cs front back : List Char} (hcs : cs = front ++ '/' :: back)
    (h : '/' ∉ back) : IsLastSlash (encode cs) (encode front).length := by
  subst hcs
  rw [encode_append, encode_cons]
  refine ⟨?_, ?_⟩
  · rw [List.getElem?_append_right (Nat.le_refl _), Nat.sub_self]; rfl
  · rw [List.drop_length_add_append]
    exact mt slash_mem_encode.1 h

end Utf8

/-- What stands between two others can be cut out of a text. -/
theorem Subject.slice?_of_append {t : String} (before mid after : List Char) {p q : Nat}
    (ht : t.toList = before ++ (mid ++ after)) (hp : (Utf8.encode before).length = p)
    (hq : p + (Utf8.encode mid).length = q) :
    (Subject.text t).slice? p q = some (String.ofList mid) := by
  have hdrop : dropBytes t.toList p = some (mid ++ after) := dropBytes_eq_some_iff.2 ⟨before, ht, hp⟩
  have htake : takeBytes (mid ++ after) (q - p) = some mid :=
    takeBytes_eq_some_iff.2 ⟨after, rfl, by omega⟩
  simp only [slice?]
  rw [if_pos (by omega), hdrop, Option.bind_some, htake, Option.map_some]

namespace Pattern
open Utf8 (slash slash_mem_encode IsLastSlash lastSlash? isLastSlash_encode)
variable {cs front back : List Char} {s : String} {p : Pattern}

theorem splitLastSlash_eq_none_iff : splitLastSlash cs = none ↔ '/' ∉ cs := by
  induction cs with
  | nil => exact ⟨fun _ => List.not_mem_nil, fun _ => rfl⟩
  | cons c cs ih =>
    rw [splitLastSlash, List.mem_cons, not_or, ← ih]
    cases splitLastSlash cs with
    | some r => exact ⟨nofun, fun h => nomatch h.2⟩
    | none =>
      dsimp only
      split
      · next hc => exact ⟨nofun, fun h => absurd hc.symm h.1⟩
      · next hc => exact ⟨fun _ => ⟨fun h => hc h.symm, rfl⟩, fun _ => rfl⟩

theorem splitLastSlash_append (front : List Char) (h : '/' ∉ back) :
    splitLastSlash (front ++ '/' :: back) = some (front, back) := by
  induction front with
  | nil => rw [List.nil_append, splitLastSlash, splitLastSlash_eq_none_iff.2 h]; rfl
  | cons c front ih => rw [List.cons_append, splitLastSlash, ih]

theorem eq_of_splitLastSlash (h : splitLastSlash cs = some (front, back)) :
    cs = front ++ '/' :: back ∧ '/' ∉ back := by
  induction cs generalizing front with
  | nil => cases h
  | cons c cs ih =>
    rw [splitLastSlash] at h
    cases hs : splitLastSlash cs with
    | some r =>
      rw [hs] at h
      cases h
      obtain ⟨rfl, hback⟩ := ih hs
      exact ⟨rfl, hback⟩
    | none =>
      rw [hs] at h
      dsimp only at h
      split at h
      · next hc => cases h; exact ⟨hc ▸ rfl, splitLastSlash_eq_none_iff.1 hs⟩
      · cases h

/-- The text begins with a slash and has another. -/
def Slashed (s : String) : Prop := ∃ cs, s.toList = '/' :: cs ∧ '/' ∈ cs

theorem slashed_iff : Slashed s ↔ ∃ expression letters : List Char,
    s.toList = '/' :: (expression ++ '/' :: letters) ∧ '/' ∉ letters := by
  constructor
  · rintro ⟨cs, hs, hmem⟩
    obtain ⟨⟨front, back⟩, hsplit⟩ : ∃ r, splitLastSlash cs = some r :=
      Option.ne_none_iff_exists'.1 (mt splitLastSlash_eq_none_iff.1 (not_not_intro hmem))
    obtain ⟨rfl, hback⟩ := eq_of_splitLastSlash hsplit
    exact ⟨front, back, hs, hback⟩
  · rintro ⟨expression, letters, hs, -⟩
    exact ⟨_, hs, by simp⟩

theorem parse_between (hs : s.toList = '/' :: (front ++ '/' :: back)) (hback : '/' ∉ back) :
    parse s = (Flags.ofLetters back).map fun flags => { expression := String.ofList front, flags } := by
  simp only [parse, hs, splitLastSlash_append front hback]

theorem parse_bare (h : ¬ Slashed s) : parse s = .ok { expression := s } := by
  rw [parse]
  split
  · next cs hs =>
    have hnot : '/' ∉ cs := fun hmem => h ⟨cs, hs, hmem⟩
    rw [splitLastSlash_eq_none_iff.2 hnot]
  · rfl

/-- Reads a pattern by the offsets of its slashes; nothing if a cut is not between two characters. -/
def parseCut? (s : String) : Option (Except Char Pattern) :=
  match lastSlash? (Utf8.ofString s) with
  | some stop =>
    if s.toList.head? = some '/' ∧ 0 < stop then do
      let expression ← (Subject.text s).slice? 1 stop
      let letters ← (Subject.text s).slice? (stop + 1) (Subject.text s).size
      some ((Flags.ofLetters letters.toList).map fun flags => { expression, flags })
    else some (.ok { expression := s })
  | none => some (.ok { expression := s })

/-- The text is cut at its first and its last slash, without splitting a character. -/
structure Cut (s : String) (stop : Nat) (expression letters : String) : Prop where
  first : s.toList.head? = some '/'
  pos : 0 < stop
  last : IsLastSlash (Utf8.ofString s) stop
  front : (Subject.text s).slice? 1 stop = some expression
  back : (Subject.text s).slice? (stop + 1) (Subject.text s).size = some letters

theorem cut_between (hs : s.toList = '/' :: (front ++ '/' :: back)) (hback : '/' ∉ back) :
    Cut s (Utf8.encode ('/' :: front)).length (String.ofList front) (String.ofList back) := by
  have hslash : (Utf8.encode ['/']).length = 1 := rfl
  have hfront : 1 + (Utf8.encode front).length = (Utf8.encode ('/' :: front)).length := by
    rw [Utf8.encode_cons, List.length_append]; rfl
  have hsize : (Subject.text s).size =
      (Utf8.encode ('/' :: front)).length + 1 + (Utf8.encode back).length := by
    have hs' : s.toList = ('/' :: front) ++ (['/'] ++ back) := hs
    rw [Subject.size, Subject.toBytes, Utf8.ofString, hs', Utf8.encode_append, Utf8.encode_append,
      List.length_append, List.length_append, hslash, Nat.add_assoc]
  refine ⟨by rw [hs]; rfl, by omega, isLastSlash_encode hs hback, ?_, ?_⟩
  · exact Subject.slice?_of_append ['/'] front ('/' :: back) hs hslash hfront
  · refine Subject.slice?_of_append ('/' :: (front ++ ['/'])) back [] ?_ ?_ hsize.symm
    · rw [hs, List.append_nil]; simp
    · rw [← List.cons_append, Utf8.encode_append, List.length_append, hslash]

theorem slashed_of_last {stop : Nat} (hfirst : s.toList.head? = some '/') (hpos : 0 < stop)
    (hlast : IsLastSlash (Utf8.ofString s) stop) : Slashed s := by
  obtain ⟨cs, hs⟩ := List.head?_eq_some_iff.1 hfirst
  refine ⟨cs, hs, slash_mem_encode.1 ?_⟩
  -- the first slash is one byte, so that the last is among the bytes of the rest
  obtain ⟨i, rfl⟩ : ∃ i, stop = i + 1 := ⟨stop - 1, by omega⟩
  have hi := hlast.here
  rw [Utf8.ofString, hs] at hi
  exact List.mem_of_getElem? (i := i) hi

/-- Reading by offsets never cuts a character. -/
theorem parseCut?_eq (s : String) : parseCut? s = some (parse s) := by
  rw [parseCut?]
  by_cases h : Slashed s
  · obtain ⟨front, back, hs, hback⟩ := slashed_iff.1 h
    have cut := cut_between hs hback
    simp only [Utf8.lastSlash?_eq_some_iff.2 cut.last, cut.first, cut.pos, and_self, if_true, cut.front,
      cut.back, Option.bind_eq_bind, Option.bind_some, String.toList_ofList, parse_between hs hback]
  · rw [parse_bare h]
    split
    · next stop hlast =>
      exact if_neg fun hcond =>
        h (slashed_of_last hcond.1 hcond.2 (Utf8.lastSlash?_eq_some_iff.1 hlast))
    · rfl

theorem Cut.unique {stop stop' : Nat} {e e' l l' : String} (h : Cut s stop e l) (h' : Cut s stop' e' l') :
    stop = stop' ∧ e = e' ∧ l = l' := by
  have hlast := Utf8.lastSlash?_eq_some_iff.2 h.last
  rw [Utf8.lastSlash?_eq_some_iff.2 h'.last] at hlast
  cases hlast
  exact ⟨rfl, Option.some.inj (h.front.symm.trans h'.front), Option.some.inj (h.back.symm.trans h'.back)⟩

theorem exists_cut_iff : (∃ stop expression letters, Cut s stop expression letters) ↔ Slashed s := by
  constructor
  · rintro ⟨stop, _, _, h⟩
    exact slashed_of_last h.first h.pos h.last
  · intro h
    obtain ⟨front, back, hs, hback⟩ := slashed_iff.1 h
    exact ⟨_, _, _, cut_between hs hback⟩

theorem Cut.toList_eq {stop : Nat} {e l : String} (h : Cut s stop e l) :
    s.toList = '/' :: (e.toList ++ '/' :: l.toList) ∧ '/' ∉ l.toList := by
  obtain ⟨front, back, hs, hback⟩ := slashed_iff.1 (exists_cut_iff.1 ⟨_, _, _, h⟩)
  obtain ⟨-, rfl, rfl⟩ := h.unique (cut_between hs hback)
  rw [String.toList_ofList, String.toList_ofList]
  exact ⟨hs, hback⟩

theorem Cut.parse {stop : Nat} {e l : String} (h : Cut s stop e l) :
    parse s = (Flags.ofLetters l.toList).map fun flags => { expression := e, flags } := by
  rw [parse_between h.toList_eq.1 h.toList_eq.2, String.ofList_toList]

/-- An expression between slashes with letters behind. -/
def between (e l : String) : String := "/" ++ e ++ "/" ++ l

theorem toList_between (e l : String) : (between e l).toList = '/' :: (e.toList ++ '/' :: l.toList) := by
  simp [between, String.toList_append]

theorem Cut.eq_between {stop : Nat} {e l : String} (h : Cut s stop e l) : s = between e l :=
  String.toList_inj.1 (h.toList_eq.1.trans (toList_between e l).symm)

/-- What a text stands for: itself, if it is not between slashes; an expression with options; or the
first character behind the last slash that is no letter of an option. -/
inductive Grammar (s : String) : Except Error Pattern → Prop where
  | bare (h : ¬ Slashed s) : Grammar s (.ok { expression := s })
  | between {stop : Nat} {expression letters : String} (cut : Cut s stop expression letters)
      (known : ∀ c ∈ letters.toList, Flag.IsLetter c) :
      Grammar s (.ok { expression, flags := Flags.named letters.toList })
  | unknown {stop : Nat} {expression letters : String} {known rest : List Char} {c : Char}
      (cut : Cut s stop expression letters) (split : letters.toList = known ++ c :: rest)
      (known : ∀ d ∈ known, Flag.IsLetter d) (first : ¬ Flag.IsLetter c) :
      Grammar s (.error (.invalidFlag c))

theorem read_result (s : String) : (read s).result = (parse s).mapError Error.invalidFlag := by
  rw [read]
  cases parse s <;> rfl

theorem Grammar.read {r : Except Error Pattern} (h : Grammar s r) : (read s).result = r := by
  rw [read_result]
  cases h with
  | bare h => rw [parse_bare h]; rfl
  | between cut known => rw [cut.parse, Flags.ofLetters_of_letters known]; rfl
  | unknown cut split known first =>
    rw [cut.parse, split, Flags.ofLetters_of_not_letter known first]; rfl

theorem grammar_read (s : String) : Grammar s (Pattern.read s).result := by
  by_cases h : Slashed s
  · obtain ⟨stop, expression, letters, cut⟩ := exists_cut_iff.2 h
    rcases Flags.letters_or_first letters.toList with known | ⟨known, c, rest, split, hknown, hc⟩
    · have hg := Grammar.between cut known
      exact hg.read ▸ hg
    · have hg := Grammar.unknown cut split hknown hc
      exact hg.read ▸ hg
  · have hg := Grammar.bare h
    exact hg.read ▸ hg

/-- Slashes in the expression do no harm. -/
theorem read_between {e l : String} (known : ∀ c ∈ l.toList, Flag.IsLetter c) :
    (read (between e l)).result = .ok { expression := e, flags := Flags.named l.toList } := by
  have hslash : '/' ∉ l.toList := fun h => absurd (known _ h) (by decide)
  rw [read_result, parse_between (toList_between e l) hslash, Flags.ofLetters_of_letters known,
    String.ofList_toList]
  rfl

/-- **Reading by the grammar.** What is read of a text is what the grammar says, and nothing else is;
the text is cut at offsets between its characters. So any expression between slashes is read back, with
the options whose letters stand behind. -/
theorem read_follows_grammar (s : String) :
    (∀ r, (read s).result = r ↔ Grammar s r) ∧
    (Slashed s ↔ ∃ stop expression letters, Cut s stop expression letters) ∧
    parseCut? s = some (parse s) ∧
    ∀ e l : String, (∀ c ∈ l.toList, Flag.IsLetter c) → s = "/" ++ e ++ "/" ++ l →
      (read s).result = .ok { expression := e, flags := Flags.named l.toList } := by
  refine ⟨fun r => ⟨fun h => h ▸ grammar_read s, Grammar.read⟩, exists_cut_iff.symm, parseCut?_eq s, ?_⟩
  rintro e l known rfl
  exact read_between known

theorem read_follows_grammar_accents :
    (read "/té/st/im").result = .ok { expression := "té/st", flags := Flags.named ['i', 'm'] } ∧
    (read "/té/imqs").result = .error (.invalidFlag 'q') ∧
    (read "té/im").result = .ok { expression := "té/im" } := by
  refine ⟨(read_follows_grammar "/té/st/im").2.2.2 "té/st" "im"
    (Flag.isLetter_of_all (by decide)) (by decide), ?_, ?_⟩
  · have hs : "/té/imqs".toList = '/' :: (['t', 'é'] ++ '/' :: ['i', 'm', 'q', 's']) := by decide
    have hletters : "imqs".toList = ['i', 'm'] ++ 'q' :: ['s'] := by decide
    exact ((read_follows_grammar "/té/imqs").1 _).2
      (.unknown (cut_between hs (by decide)) hletters (Flag.isLetter_of_all (by decide)) (by decide))
  · refine ((read_follows_grammar "té/im").1 _).2 (.bare ?_)
    rintro ⟨cs, hs, -⟩
    cases hs

/-- All that is read as a pattern: a text that is not between slashes, or an expression between them. -/
theorem read_eq_ok_iff : (read s).result = .ok p ↔
    (¬ Slashed s ∧ p = { expression := s }) ∨
    ∃ e l, (∀ c ∈ l.toList, Flag.IsLetter c) ∧ s = between e l ∧
      p = { expression := e, flags := Flags.named l.toList } := by
  constructor
  · intro h
    have hg : Grammar s (.ok p) := h ▸ grammar_read s
    cases hg with
    | bare hbare => exact .inl ⟨hbare, rfl⟩
    | between cut known => exact .inr ⟨_, _, known, cut.eq_between, rfl⟩
  · rintro (⟨h, rfl⟩ | ⟨e, l, known, rfl, rfl⟩)
    · exact (Grammar.bare h).read
    · exact read_between known

theorem plain_of_read (h : (read s).result = .ok p) : p.newline = none ∧ p.bsr = none := by
  obtain ⟨-, rfl⟩ | ⟨e, l, -, -, rfl⟩ := read_eq_ok_iff.1 h <;> exact ⟨rfl, rfl⟩

/-- Between slashes every pattern that the notation has options for can be written. -/
theorem read_between_text (hn : p.newline = none) (hb : p.bsr = none) :
    (read (between p.expression (Flags.text p.flags))).result = .ok p := by
  obtain ⟨expression, flags, newline, bsr⟩ := p
  obtain rfl : newline = none := hn
  obtain rfl : bsr = none := hb
  have known : ∀ c ∈ (Flags.text flags).toList, Flag.IsLetter c := by
    rw [Flags.text, String.toList_ofList]
    exact fun c => Flags.isLetter_of_mem_letters
  rw [read_between known, Flags.text, String.toList_ofList, Flags.named_letters]

/-- A pattern without options whose expression is itself between slashes is not read from it. -/
theorem read_expression_ne (h : Slashed p.expression) : (read p.expression).result ≠ .ok p := by
  intro hread
  rcases read_eq_ok_iff.1 hread with ⟨hnot, -⟩ | ⟨e, l, -, htext, hp⟩
  · exact hnot h
  · have hlen := congrArg (fun t : String => t.toList.length) htext
    simp only [toList_between, hp, List.length_cons, List.length_append] at hlen
    omega

theorem eq_of_read_slashed (h : (read s).result = .ok p) (hflags : p.flags = ∅)
    (hslashed : Slashed p.expression) : s = between p.expression "" := by
  obtain ⟨hnot, rfl⟩ | ⟨e, l, known, rfl, rfl⟩ := read_eq_ok_iff.1 h
  · exact absurd hslashed hnot
  · have hl := Flags.eq_nil_of_named_eq_empty known hflags
    rw [String.toList_inj.1 (hl.trans String.toList_empty.symm)]

theorem read_display_iff (hn : p.newline = none) (hb : p.bsr = none) :
    (read p.display).result = .ok p ↔ (p.flags = ∅ → ¬ Slashed p.expression) := by
  rw [display]
  split
  · next hempty =>
    have hflags := OptionSet.isEmpty_iff.1 hempty
    constructor
    · exact fun h _ hslashed => read_expression_ne hslashed h
    · intro h
      refine read_eq_ok_iff.2 (.inl ⟨h hflags, ?_⟩)
      obtain ⟨expression, flags, newline, bsr⟩ := p
      cases hn; cases hb; cases hflags; rfl
  · next hempty =>
    exact ⟨fun _ hflags => absurd (OptionSet.isEmpty_iff.2 hflags) hempty,
      fun _ => read_between_text hn hb⟩

/-- **Patterns that are read back.** What is shown of a pattern is read back, unless it has no options
and its expression begins with a slash and has another. Such a pattern is read from one text only, with
slashes around it, and that is not the one that is shown. -/
theorem display_read_back (p : Pattern) :
    (p.newline = none → p.bsr = none →
      ((read p.display).result = .ok p ↔ (p.flags = ∅ → ¬ Slashed p.expression)) ∧
      (read ("/" ++ p.expression ++ "/" ++ Flags.text p.flags)).result = .ok p) ∧
    ∀ s, (read s).result = .ok p →
      ((read p.display).result = .ok p ↔ (p.flags = ∅ → ¬ Slashed p.expression)) ∧
      ((read p.display).result ≠ .ok p → s = "/" ++ p.expression ++ "/") := by
  refine ⟨fun hn hb => ⟨read_display_iff hn hb, read_between_text hn hb⟩, fun s h => ?_⟩
  obtain ⟨hn, hb⟩ := plain_of_read h
  refine ⟨read_display_iff hn hb, fun hne => ?_⟩
  rw [Ne, read_display_iff hn hb] at hne
  obtain ⟨hflags, hslashed⟩ := Classical.not_imp.1 hne
  rw [eq_of_read_slashed h hflags (not_not.1 hslashed), between, String.append_empty]

theorem display_read_back_letters :
    let p : Pattern := { expression := "/té/st", flags := Flags.named ['i', 'm'] }
    let q : Pattern := { expression := "/té" }
    (read p.display).result = .ok p ∧ (read q.display).result = .ok q ∧
      (read "//té/st/mi").result = .ok p := by
  intro p q
  have hp : p.flags = ∅ → ¬ Slashed p.expression := fun h =>
    absurd (congrArg (·.has .caseless) h) (by decide)
  have hq : q.flags = ∅ → ¬ Slashed q.expression := by
    rintro - ⟨cs, hs, hmem⟩
    have hq : q.expression.toList = ['/', 't', 'é'] := by decide
    rw [hq] at hs
    cases hs
    exact absurd hmem (by decide)
  have hread : (read "//té/st/mi").result = .ok p := by
    have hflags : Flags.named ['i', 'm'] = Flags.named ['m', 'i'] := by
      refine OptionSet.ext fun f => ?_
      cases f <;> rfl
    rw [show p = { expression := "/té/st", flags := Flags.named ['m', 'i'] } by simp only [p, hflags]]
    exact read_between (e := "/té/st") (l := "mi") (Flag.isLetter_of_all (by decide))
  exact ⟨((display_read_back p).2 _ hread).1.2 hp, ((display_read_back q).1 rfl rfl).1.2 hq, hread⟩

theorem slashed_expression_not_read_back :
    let p : Pattern := { expression := "/a/" }
    (read "//a//").result = .ok p ∧ p.display = "/a/" ∧
      (read "/a/").result = .ok { expression := "a" } ∧ (read p.display).result ≠ .ok p := by
  intro p
  refine ⟨by rfl, by rfl, by rfl, ?_⟩
  exact read_expression_ne ⟨['a', '/'], by decide, by decide⟩

end Pattern

end Rematch
