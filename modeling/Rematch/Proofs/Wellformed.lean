import Rematch.Proofs.Decoding
import Rematch.Proofs.RegexEngine

/-! # What is a text, and what an engine refuses as none

A cut inside of a character leaves bytes that are no text: they start with a byte that starts no
character (`Subject.isBoundary_of_drop_eq`). In UTF mode an engine refuses a subject that is no text with
a code of its own (`Engine.Rejects`). The engine of regular expressions looks for what is malformed by
other rules than decoding does, and finds nothing just in texts (`Regex.Malformed.of?_eq_none_iff`). -/

namespace Rematch

namespace Utf8

theorem trail_range {n v : Nat} {x : UInt8} (h : x ∈ trail n v) : 0x80 ≤ x.toNat ∧ x.toNat < 0xc0 := by
  induction n with
  | zero => cases h
  | succ n ih =>
    rcases List.mem_cons.1 h with rfl | h
    · rw [UInt8.toNat_ofNat_of_lt' (show _ < 256 by omega)]
      omega
    · exact ih h

theorem isContinuation_of_mem_trail {n v : Nat} {x : UInt8} (h : x ∈ trail n v) :
    isContinuation x = true := by
  obtain ⟨hlow, hhigh⟩ := trail_range h
  rw [isContinuation, Bool.and_eq_true, decide_eq_true_eq, decide_eq_true_eq,
    UInt8.le_iff_toNat_le, UInt8.lt_iff_toNat_lt]
  exact ⟨hlow, hhigh⟩

theorem head_trail {n v : Nat} : ((trail (n + 1) v).headD 0x80).toNat = 0x80 + v / 64 ^ n % 64 := by
  show (UInt8.ofNat _).toNat = _
  exact UInt8.toNat_ofNat_of_lt' (show _ < 256 by omega)

theorem length_trail (n v : Nat) : (trail n v).length = n := by
  induction n with
  | zero => rfl
  | succ n ih => rw [trail, List.length_cons, ih]

/-- The bytes of a character from its second on start no other character. -/
theorem drop_encodeChar_ne_char {c d : Char} {k : Nat} (h0 : 0 < k) (hk : k < c.utf8Size)
    (rest l : Bytes) :
    (String.utf8EncodeChar c).drop k ++ rest ≠ String.utf8EncodeChar d ++ l := by
  obtain ⟨n, hn⟩ := exists_shape c
  have hbytes := encodeChar_eq hn
  have hlen := String.length_utf8EncodeChar c
  rw [hbytes] at hlen ⊢
  obtain ⟨j, rfl⟩ : ∃ j, k = j + 1 := ⟨k - 1, by omega⟩
  rw [List.length_cons] at hlen
  have hj : j < (trail n c.toNat).length := by omega
  rw [List.drop_succ_cons, List.drop_eq_getElem_cons hj]
  have hrange := trail_range (List.getElem_mem hj)
  generalize (trail n c.toNat)[j] = x at hrange ⊢
  intro he
  obtain ⟨y, ys, hy⟩ := List.exists_cons_of_ne_nil (String.utf8EncodeChar_ne_nil (c := d))
  rw [hy] at he
  obtain ⟨rfl, -⟩ := List.cons.inj he
  have := first_range hy
  omega

theorem drop_encodeChar_ne {c : Char} {k : Nat} (h0 : 0 < k) (hk : k < c.utf8Size) (rest : Bytes)
    (ds : List Char) : (String.utf8EncodeChar c).drop k ++ rest ≠ encode ds := by
  cases ds with
  | nil =>
    intro he
    have hlen := congrArg List.length he
    simp only [List.length_append, List.length_drop, String.length_utf8EncodeChar, encode_nil,
      List.length_nil] at hlen
    omega
  | cons d ds => exact drop_encodeChar_ne_char h0 hk rest (encode ds)

end Utf8

namespace Subject

theorem exists_inside {cs : List Char} {p : Nat} (hp : p ≤ (Utf8.encode cs).length)
    (h : ¬ IsBoundary cs p) : ∃ before c after k, cs = before ++ c :: after ∧ 0 < k ∧ k < c.utf8Size ∧
      p = (Utf8.encode before).length + k := by
  induction cs generalizing p with
  | nil =>
    obtain rfl : p = 0 := Nat.le_zero.1 hp
    exact absurd (isBoundary_iff.2 ⟨[], [], rfl, rfl⟩) h
  | cons c cs ih =>
    by_cases hlt : p < c.utf8Size
    · have h0 : 0 < p := Nat.pos_of_ne_zero fun h0 =>
        h (isBoundary_iff.2 ⟨[], c :: cs, rfl, h0.symm⟩)
      exact ⟨[], c, cs, p, rfl, h0, hlt, by simp⟩
    · rw [Utf8.encode_cons, List.length_append, String.length_utf8EncodeChar] at hp
      have hinner : ¬ IsBoundary cs (p - c.utf8Size) := by
        intro hb
        obtain ⟨before, after, rfl, hl⟩ := isBoundary_iff.1 hb
        refine h (isBoundary_iff.2 ⟨c :: before, after, rfl, ?_⟩)
        rw [Utf8.encode_cons, List.length_append, String.length_utf8EncodeChar]
        omega
      obtain ⟨before, d, after, k, rfl, h0, hk, hpos⟩ := ih (by omega) hinner
      refine ⟨c :: before, d, after, k, rfl, h0, hk, ?_⟩
      rw [Utf8.encode_cons, List.length_append, String.length_utf8EncodeChar]
      omega

theorem not_isBoundary_inside {before after : List Char} {c : Char} {k : Nat} (h0 : 0 < k)
    (hk : k < c.utf8Size) :
    ¬ IsBoundary (before ++ c :: after) ((Utf8.encode before).length + k) := by
  obtain ⟨k, rfl⟩ := Nat.exists_eq_succ_of_ne_zero (Nat.ne_of_gt h0)
  rw [IsBoundary, dropBytes_add (dropBytes_eq_some_iff.2 ⟨before, rfl, rfl⟩), dropBytes,
    if_neg (by omega)]
  exact Bool.false_ne_true

/-- Behind an offset inside of a character stands what is left of its bytes. -/
theorem exists_drop_inside {cs : List Char} {p : Nat} (hp : p ≤ (Utf8.encode cs).length)
    (h : ¬ IsBoundary cs p) : ∃ c k rest, 0 < k ∧ k < c.utf8Size ∧
      (Utf8.encode cs).drop p = (String.utf8EncodeChar c).drop k ++ rest := by
  obtain ⟨before, c, after, k, rfl, h0, hk, rfl⟩ := exists_inside hp h
  refine ⟨c, k, Utf8.encode after, h0, hk, ?_⟩
  have hlen := String.length_utf8EncodeChar c
  rw [Utf8.encode_append, Utf8.encode_cons, List.drop_length_add_append, List.drop_append,
    show k - (String.utf8EncodeChar c).length = 0 by omega, List.drop_zero]

theorem isBoundary_of_drop_eq {cs ds : List Char} {p : Nat} (hp : p ≤ (Utf8.encode cs).length)
    (h : (Utf8.encode cs).drop p = Utf8.encode ds) : IsBoundary cs p := by
  refine Classical.byContradiction fun hb => ?_
  obtain ⟨c, k, rest, h0, hk, hdrop⟩ := exists_drop_inside hp hb
  exact Utf8.drop_encodeChar_ne h0 hk rest ds (hdrop.symm.trans h)

theorem isBoundary_of_drop_cons {cs : List Char} {d : Char} {l : Bytes} {p : Nat}
    (hp : p ≤ (Utf8.encode cs).length)
    (h : (Utf8.encode cs).drop p = String.utf8EncodeChar d ++ l) : IsBoundary cs p := by
  refine Classical.byContradiction fun hb => ?_
  obtain ⟨c, k, rest, h0, hk, hdrop⟩ := exists_drop_inside hp hb
  exact Utf8.drop_encodeChar_ne_char h0 hk rest l (hdrop.symm.trans h)

end Subject

/-- The codes by which an engine says that a subject is no text. -/
def Code.IsMalformed (code : Int) : Prop := -23 ≤ code ∧ code ≤ -3

instance (code : Int) : Decidable (Code.IsMalformed code) := inferInstanceAs (Decidable (_ ∧ _))

theorem Code.IsMalformed.classify {code : Int} (h : IsMalformed code) :
    Matcher.classify code = none := by
  obtain ⟨-, hle⟩ := h
  rcases Matcher.classify_cases code with ⟨h0, -⟩ | ⟨h1, -⟩ | ⟨h2, -⟩ | ⟨-, -, -, hc⟩
  · omega
  · rw [h1] at hle; exact absurd hle (by decide)
  · rw [h2] at hle; exact absurd hle (by decide)
  · exact hc

namespace Engine
variable {κ : Type} [Engine κ]

/-- Of a subject that is no text the engine says so. -/
def Rejects (c : κ) (flags : MatchFlags) : Prop :=
  ∀ b, (∀ cs, b ≠ Utf8.encode cs) → ∀ s, Code.IsMalformed (attempt c b flags s).1

/-- Of a text the engine does not say that it is none. -/
def Passes (c : κ) (flags : MatchFlags) : Prop :=
  ∀ cs s, ¬ Code.IsMalformed (attempt c (Utf8.encode cs) flags s).1

end Engine

namespace Regex.Malformed
open Utf8

/-- What is left of a character begun is read to the end if its bytes are in range. -/
theorem exists_char_of_reads {bs : Bytes} {p : Begun} (hr : Reads bs p) {x : UInt8} {tail : Bytes}
    (hlen : tail.length = p.owed) (hlow : p.low ≤ x) (hhigh : x ≤ p.high)
    (htail : ∀ y ∈ tail, isContinuation y = true) :
    ∃ c, String.utf8EncodeChar c = bs ++ x :: tail := by
  induction tail generalizing bs p x with
  | nil =>
    rcases Reads.next_cases p x with ⟨hout, -⟩ | ⟨-, -, -, hn⟩ | ⟨n, -, -, ho, -⟩
    · rw [UInt8.le_iff_toNat_le] at hlow hhigh
      omega
    · exact ⟨_, hr.whole hn⟩
    · rw [ho] at hlen; cases hlen
  | cons y tail ih =>
    rcases Reads.next_cases p x with ⟨hout, -⟩ | ⟨-, -, ho, -⟩ | ⟨n, -, -, ho, hn⟩
    · rw [UInt8.le_iff_toNat_le] at hlow hhigh
      omega
    · rw [ho] at hlen; cases hlen
    · have hy := htail y List.mem_cons_self
      simp only [isContinuation, Bool.and_eq_true, decide_eq_true_eq, UInt8.lt_iff_toNat_lt,
        UInt8.le_iff_toNat_le, UInt8.reduceToNat] at hy
      rw [ho, List.length_cons] at hlen
      have hleast : 0x80 ≤ y := UInt8.le_iff_toNat_le.2 hy.1
      have hgreatest : y ≤ 0xbf := UInt8.le_iff_toNat_le.2 (Nat.le_of_lt_succ hy.2)
      obtain ⟨c, hc⟩ := ih (hr.next hn) (Nat.succ.inj hlen) hleast hgreatest
        fun z hz => htail z (List.mem_cons_of_mem _ hz)
      exact ⟨c, by rw [hc]; simp⟩

/-- A first byte that starts sequences of two to four bytes, and the seconds that may follow it. -/
theorem lead_of_range {b : UInt8} (hlow : 0xc2 ≤ b) (hhigh : b ≤ 0xf4) :
    ∃ p, lead b = .begun p ∧ p.owed + 1 = following b ∧ ∀ x, leastSecond b ≤ x → x ≤ 0xbf →
      ¬ (b = 0xed ∧ 0xa0 ≤ x) → ¬ (b = 0xf4 ∧ 0x8f < x) → p.low ≤ x ∧ x ≤ p.high := by
  unfold following leastSecond
  fun_cases lead b <;>
    simp only [UInt8.lt_iff_toNat_lt, UInt8.le_iff_toNat_le, ← UInt8.toNat_inj, UInt8.reduceToNat] at *
  case case1 | case2 | case10 => omega
  all_goals
    refine ⟨_, rfl, ?_, fun x hx hbf hed hf4 => ?_⟩
    · split_ifs <;> first | rfl | omega
    · simp only [UInt8.reduceToNat] at *
      split_ifs at hx <;> simp only [UInt8.reduceToNat] at hx <;> omega

theorem exists_char_of_sequence {b : UInt8} {tail : Bytes}
    (hlen : tail.length = following b) (h : ofSequence? b tail = none) :
    ∃ c, String.utf8EncodeChar c = b :: tail := by
  unfold ofSequence? at h
  dsimp only at h
  split at h
  · cases h
  next hcont =>
  split_ifs at h with hlong hed hn hgreat
  simp only [Bool.or_eq_true, Bool.and_eq_true, decide_eq_true_eq, not_or, not_and, UInt8.not_lt]
    at hlong hed hgreat
  obtain ⟨p, hp, howed, hrange⟩ := lead_of_range hlong.1 hgreat.1
  have hreads := lead_spec b
  rw [hp] at hreads
  -- what is ruled out for the second byte is just what the range of a character begun leaves out
  cases tail with
  | nil => rw [← howed] at hlen; cases hlen
  | cons x tail =>
    have hall : ∀ y ∈ x :: tail, isContinuation y = true := by
      intro y hy
      have := List.findIdx?_eq_none_iff.1 hcont y hy
      simpa using this
    have hx := hall x List.mem_cons_self
    simp only [isContinuation, Bool.and_eq_true, decide_eq_true_eq] at hx
    obtain ⟨hlow, hhigh⟩ := hrange x hlong.2
      (UInt8.le_iff_toNat_le.2 (Nat.le_of_lt_succ (UInt8.lt_iff_toNat_lt.1 hx.2)))
      (fun h => hed h.1 h.2) (fun h => UInt8.not_lt.2 (hgreat.2 h.1) h.2)
    refine exists_char_of_reads hreads ?_ hlow hhigh fun y hy => hall y (List.mem_cons_of_mem _ hy)
    rw [← howed, List.length_cons] at hlen
    exact Nat.succ.inj hlen

theorem exists_text_of_find? {fuel : Nat} {b : Bytes} (hfuel : b.length ≤ fuel)
    (h : find? fuel b = none) : ∃ cs, b = encode cs := by
  induction fuel generalizing b with
  | zero => exact ⟨[], List.length_eq_zero_iff.1 (Nat.le_zero.1 hfuel)⟩
  | succ fuel ih =>
    cases b with
    | nil => exact ⟨[], rfl⟩
    | cons x rest =>
      rw [List.length_cons] at hfuel
      rw [find?] at h
      split_ifs at h with hascii hcont hillegal
      · obtain ⟨cs, rfl⟩ := ih (Nat.le_of_succ_le_succ hfuel) h
        have hlead := lead_spec x
        rw [lead, if_pos hascii] at hlead
        exact ⟨_ :: cs, by rw [encode_cons, hlead]; rfl⟩
      -- a sequence is well formed by its own bytes, so the rest is looked at as if it stood alone
      · dsimp only at h
        split_ifs at h with hshort
        split at h
        · cases h
        · next hseq =>
          have hlen := List.length_take_of_le (Nat.le_of_not_lt hshort)
          obtain ⟨c, hc⟩ := exists_char_of_sequence hlen hseq
          have hdrop : (rest.drop (following x)).length ≤ fuel := by
            rw [List.length_drop]; omega
          obtain ⟨cs, hcs⟩ := ih hdrop h
          refine ⟨c :: cs, ?_⟩
          rw [encode_cons, hc, ← hcs, List.cons_append, List.take_append_drop]

/-- Nothing is wrong with the bytes of a character. -/
theorem sequence_of_char {c : Char} {b : UInt8} {tail : Bytes}
    (h : String.utf8EncodeChar c = b :: tail) :
    (b < 0x80 ∧ tail = []) ∨
      (0xc0 ≤ b ∧ b < 0xfe ∧ tail.length = following b ∧ ofSequence? b tail = none) := by
  obtain ⟨n, hs, hb, rfl⟩ := first_eq h
  have hcont : (trail n c.toNat).findIdx? (fun x => !isContinuation x) = none :=
    List.findIdx?_eq_none_iff.2 fun x hx => by rw [isContinuation_of_mem_trail hx]; rfl
  simp only [ofSequence?, hcont, length_trail, following, leastSecond]
  cases n with
  | zero => exact .inl ⟨by rw [UInt8.lt_iff_toNat_lt, hb]; simpa [mark, Shape] using hs, rfl⟩
  | succ n =>
    refine .inr ?_
    simp only [Bool.or_eq_true, Bool.and_eq_true, decide_eq_true_eq, UInt8.lt_iff_toNat_lt,
      UInt8.le_iff_toNat_le, ← UInt8.toNat_inj, apply_ite UInt8.toNat, head_trail, UInt8.reduceToNat]
    rcases n with _ | _ | _ | n
    case succ.succ.succ => exact hs.elim
    all_goals
      simp only [Shape, mark] at hs hb
      refine ⟨by omega, by omega, ?_, ?_⟩ <;> split_ifs <;> first | rfl | omega

/-- Behind the bytes of a character, the engine goes on with what follows it. -/
theorem find?_encodeChar (c : Char) (rest : Bytes) (fuel : Nat) :
    find? (fuel + 1) (String.utf8EncodeChar c ++ rest) = find? fuel rest := by
  obtain ⟨b, tail, hc⟩ := List.exists_cons_of_ne_nil (String.utf8EncodeChar_ne_nil (c := c))
  rw [hc, List.cons_append, find?]
  rcases sequence_of_char hc with ⟨hb, rfl⟩ | ⟨hlow, hhigh, hlen, hseq⟩
  · rw [if_pos hb, List.nil_append]
  · have hascii : ¬ b < 0x80 := UInt8.not_lt.2 (UInt8.le_trans (by decide) hlow)
    rw [if_neg hascii, if_neg (UInt8.not_lt.2 hlow), if_neg (UInt8.not_le.2 hhigh), ← hlen]
    dsimp only
    rw [if_neg (by simp), List.take_left, List.drop_left, hseq]

theorem find?_encode (cs : List Char) (fuel : Nat) : find? fuel (encode cs) = none := by
  induction fuel generalizing cs with
  | zero => rw [find?]
  | succ fuel ih =>
    cases cs with
    | nil => rfl
    | cons c cs => rw [encode_cons, find?_encodeChar, ih]

/-- The engine finds nothing wrong just with texts. -/
theorem of?_eq_none_iff {b : Bytes} : of? b = none ↔ ∃ cs, b = encode cs := by
  constructor
  · exact exists_text_of_find? (Nat.le_refl _)
  · rintro ⟨cs, rfl⟩
    exact find?_encode cs _

theorem isMalformed_of_sequence {b : UInt8} {tail : Bytes} {e : Malformed}
    (hlen : tail.length ≤ 5) (hpos : 0 < tail.length)
    (h : ofSequence? b tail = some e) : Code.IsMalformed e.code := by
  unfold ofSequence? at h
  dsimp only at h
  split at h
  · next i hi =>
    obtain ⟨hlt, -⟩ := List.findIdx?_eq_some_iff_getElem.1 hi
    cases h
    simp only [Code.IsMalformed, code]
    omega
  · split_ifs at h <;> cases h <;> simp only [Code.IsMalformed, code] <;> omega

theorem following_bounds (b : UInt8) : 0 < following b ∧ following b ≤ 5 := by
  unfold following
  split_ifs <;> decide

theorem isMalformed_of_find? {fuel : Nat} {b : Bytes} {e : Malformed} (h : find? fuel b = some e) :
    Code.IsMalformed e.code := by
  induction fuel generalizing b with
  | zero => cases b <;> cases h
  | succ fuel ih =>
    cases b with
    | nil => cases h
    | cons x rest =>
      obtain ⟨hpos, hle⟩ := following_bounds x
      rw [find?] at h
      split_ifs at h with hascii hcont hillegal
      · exact ih h
      · cases h; decide
      · cases h; decide
      · dsimp only at h
        split_ifs at h with hshort
        · cases h
          simp only [Code.IsMalformed, code]
          omega
        · have hlen := List.length_take_of_le (Nat.le_of_not_lt hshort)
          split at h
          · next hseq =>
            cases h
            exact isMalformed_of_sequence (by omega) (by omega) hseq
          · exact ih h

end Regex.Malformed

namespace Regex.Program

/-- An engine of regular expressions in UTF mode that is to check its subjects refuses what is no text. -/
theorem rejects {p : Program} {flags : MatchFlags} (hutf : p.whole.mode.utf = true)
    (hcheck : flags.has .noUtfCheck = false)
    (hpartial : ((flags.has .partialHard || flags.has .partialSoft) && flags.has .endAnchored) = false) :
    Engine.Rejects p flags := by
  intro b hb s
  show Code.IsMalformed (p.attempt b flags s).1
  obtain ⟨e, he⟩ : ∃ e, Malformed.of? b = some e :=
    Option.ne_none_iff_exists'.1 fun h => let ⟨cs, hcs⟩ := Malformed.of?_eq_none_iff.1 h; hb cs hcs
  simp only [attempt, hpartial, hutf, hcheck, he]
  exact Malformed.isMalformed_of_find? he

theorem passes (p : Program) (flags : MatchFlags) : Engine.Passes p flags := by
  intro cs s
  show ¬ Code.IsMalformed (p.attempt (Utf8.encode cs) flags s).1
  unfold attempt
  simp only [Malformed.of?_eq_none_iff.2 ⟨cs, rfl⟩, ite_self]
  split
  · show ¬ Code.IsMalformed Failure.badOption.code
    decide
  cases p.search (Utf8.encode cs) flags with
  | nothing => show ¬ Code.IsMalformed Code.noMatch; decide
  | limit => show ¬ Code.IsMalformed Failure.matchLimit.code; decide
  | callLoop => show ¬ Code.IsMalformed Failure.callLoop.code; decide
  | partially start => show ¬ Code.IsMalformed Code.partialMatch; decide
  | matched r =>
    simp only [Code.IsMalformed]
    split <;> omega

end Regex.Program

end Rematch
