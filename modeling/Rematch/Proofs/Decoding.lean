import Mathlib.Algebra.Group.Nat.Defs
import Rematch.Proofs.Tail

/-! # What decoding accepts and where it fails

Decoding walks the bytes inside of one character at a time. `Reads bs p` says what the state `p` of
that walk knows: the characters that it can still become are those whose bytes start with `bs`. -/

namespace Rematch.Utf8

/-- Is `v` the number of a character with so many bytes behind the first? -/
def Shape : Nat → Nat → Prop
  | 0, v => v < 0x80
  | 1, v => 0x80 ≤ v ∧ v < 0x800
  | 2, v => 0x800 ≤ v ∧ v < 0x10000 ∧ (v < 0xd800 ∨ 0xe000 ≤ v)
  | 3, v => 0x10000 ≤ v ∧ v < 0x110000
  | _, _ => False

/-- What the first byte says of the number of those behind it. -/
def mark : Nat → Nat
  | 0 => 0
  | 1 => 0xc0
  | 2 => 0xe0
  | _ => 0xf0

/-- The last `n` bytes of the character with the number `v`. -/
def trail : Nat → Nat → Bytes
  | 0, _ => []
  | n + 1, v => UInt8.ofNat (0x80 + v / 64 ^ n % 64) :: trail n v

theorem Shape.isValidChar {n v : Nat} (h : Shape n v) : v.isValidChar := by
  unfold Nat.isValidChar
  match n, h with
  | 0, h => simp only [Shape] at h; omega
  | 1, h => simp only [Shape] at h; omega
  | 2, h => simp only [Shape] at h; omega
  | 3, h => simp only [Shape] at h; omega

theorem exists_shape (c : Char) : ∃ n, Shape n c.toNat := by
  have hvalid : c.toNat.isValidChar := c.valid
  unfold Nat.isValidChar at hvalid
  by_cases h0 : c.toNat < 0x80
  · exact ⟨0, h0⟩
  by_cases h1 : c.toNat < 0x800
  · exact ⟨1, by simp only [Shape]; omega⟩
  by_cases h2 : c.toNat < 0x10000
  · exact ⟨2, by simp only [Shape]; omega⟩
  · exact ⟨3, by simp only [Shape]; omega⟩

theorem encodeChar_eq {n : Nat} {c : Char} (h : Shape n c.toNat) :
    String.utf8EncodeChar c = UInt8.ofNat (mark n + c.toNat / 64 ^ n) :: trail n c.toNat := by
  have hval : c.val.toNat = c.toNat := rfl
  unfold String.utf8EncodeChar
  rw [hval]
  generalize c.toNat = v at h ⊢
  match n, h with
  | 0, h =>
    simp only [Shape] at h
    rw [if_pos (by omega)]
    simp [mark, trail]
  | 1, h =>
    simp only [Shape] at h
    have hfirst : v / 64 % 0x20 + 0xc0 = 0xc0 + v / 64 := by omega
    have hsecond : v % 64 + 0x80 = 0x80 + v % 64 := Nat.add_comm _ _
    rw [if_neg (by omega), if_pos (by omega), hfirst, hsecond]
    simp only [mark, trail, Nat.pow_one, Nat.pow_zero, Nat.div_one]
  | 2, h =>
    simp only [Shape] at h
    have hfirst : v / 4096 % 0x10 + 0xe0 = 0xe0 + v / 4096 := by omega
    rw [if_neg (by omega), if_neg (by omega), if_pos (by omega), hfirst, Nat.add_comm (v / 64 % 64),
      Nat.add_comm (v % 64)]
    simp only [mark, trail, Nat.reducePow, Nat.div_one]
  | 3, h =>
    simp only [Shape] at h
    have hfirst : v / 262144 % 0x08 + 0xf0 = 0xf0 + v / 262144 := by omega
    rw [if_neg (by omega), if_neg (by omega), if_neg (by omega), hfirst,
      Nat.add_comm (v / 4096 % 64), Nat.add_comm (v / 64 % 64), Nat.add_comm (v % 64)]
    simp only [mark, trail, Nat.reducePow, Nat.div_one]

/-- The characters that a character begun can still become, by their numbers. -/
structure Begun.Fits (p : Begun) (v : Nat) : Prop where
  value : v / 64 ^ (p.owed + 1) = p.value
  low : p.low.toNat ≤ 0x80 + v / 64 ^ p.owed % 64
  high : 0x80 + v / 64 ^ p.owed % 64 ≤ p.high.toNat

/-- The bytes `bs` begin just the characters that `p` can still become. -/
structure Reads (bs : Bytes) (p : Begun) : Prop where
  seen : bs.length = p.seen
  pos : 0 < p.seen
  range : 0x80 ≤ p.low.toNat ∧ p.low.toNat ≤ p.high.toNat ∧ p.high.toNat < 0xc0
  sound : ∀ v, p.Fits v → v.isValidChar ∧
    String.utf8EncodeChar (Char.ofNat v) = bs ++ trail (p.owed + 1) v
  complete : ∀ c tail, String.utf8EncodeChar c = bs ++ tail → p.Fits c.toNat

theorem toNat_ofNat {v : Nat} (h : v.isValidChar) : (Char.ofNat v).toNat = v := by
  rw [Char.ofNat, dif_pos h]
  rfl

theorem Begun.exists_fits {p : Begun} (hlow : 0x80 ≤ p.low.toNat) (hle : p.low.toNat ≤ p.high.toNat)
    (hhigh : p.high.toNat < 0xc0) : ∃ v, p.Fits v := by
  have hpow : 0 < 64 ^ p.owed := Nat.pow_pos (by decide)
  have hdiv : (p.value * 64 + (p.low.toNat - 0x80)) * 64 ^ p.owed / 64 ^ p.owed =
      p.value * 64 + (p.low.toNat - 0x80) := Nat.mul_div_cancel _ hpow
  refine ⟨(p.value * 64 + (p.low.toNat - 0x80)) * 64 ^ p.owed, ?_, ?_, ?_⟩
  · rw [Nat.pow_succ, ← Nat.div_div_eq_div_mul, hdiv]
    omega
  · rw [hdiv]; omega
  · rw [hdiv]; omega

theorem Shape.eq_of_first {n m v w : Nat} (hv : Shape n v) (hw : Shape m w)
    (h : mark n + v / 64 ^ n = mark m + w / 64 ^ m) : n = m := by
  match n, hv, m, hw with
  | 0, hv, 0, hw | 1, hv, 1, hw | 2, hv, 2, hw | 3, hv, 3, hw => rfl
  | 0, hv, 1, hw | 0, hv, 2, hw | 0, hv, 3, hw
  | 1, hv, 0, hw | 1, hv, 2, hw | 1, hv, 3, hw
  | 2, hv, 0, hw | 2, hv, 1, hw | 2, hv, 3, hw
  | 3, hv, 0, hw | 3, hv, 1, hw | 3, hv, 2, hw =>
    simp only [Shape, mark] at hv hw h
    omega

theorem mark_add_lt {n v : Nat} (h : Shape n v) : mark n + v / 64 ^ n < 256 := by
  match n, h with
  | 0, h => simp only [Shape, mark] at h ⊢; omega
  | 1, h => simp only [Shape, mark] at h ⊢; omega
  | 2, h => simp only [Shape, mark] at h ⊢; omega
  | 3, h => simp only [Shape, mark] at h ⊢; omega

theorem first_eq {c : Char} {b : UInt8} {tail : Bytes} (h : String.utf8EncodeChar c = b :: tail) :
    ∃ n, Shape n c.toNat ∧ b.toNat = mark n + c.toNat / 64 ^ n ∧ tail = trail n c.toNat := by
  obtain ⟨n, hn⟩ := exists_shape c
  rw [encodeChar_eq hn] at h
  obtain ⟨rfl, rfl⟩ := List.cons.inj h
  exact ⟨n, hn, UInt8.toNat_ofNat_of_lt' (mark_add_lt hn), rfl⟩

/-- A first byte that leaves `n + 1` bytes to come, and a range for the second that holds just the
characters of that length. -/
theorem reads_first {b low high : UInt8} {n value : Nat} (hb : b.toNat = mark (n + 1) + value)
    (hrange : 0x80 ≤ low.toNat ∧ low.toNat ≤ high.toNat ∧ high.toNat < 0xc0)
    (hshape : ∀ v, v / 64 ^ (n + 1) = value → (Shape (n + 1) v ↔
      low.toNat ≤ 0x80 + v / 64 ^ n % 64 ∧ 0x80 + v / 64 ^ n % 64 ≤ high.toNat)) :
    Reads [b] ⟨1, n, low, high, value⟩ := by
  have hfits : ∀ v, (⟨1, n, low, high, value⟩ : Begun).Fits v ↔
      v / 64 ^ (n + 1) = value ∧ Shape (n + 1) v := by
    intro v
    constructor
    · rintro ⟨hv, hl, hh⟩
      exact ⟨hv, (hshape v hv).2 ⟨hl, hh⟩⟩
    · rintro ⟨hv, hs⟩
      obtain ⟨hl, hh⟩ := (hshape v hv).1 hs
      exact ⟨hv, hl, hh⟩
  refine ⟨rfl, Nat.one_pos, hrange, ?_, ?_⟩
  · intro v hv
    obtain ⟨hvalue, hs⟩ := (hfits v).1 hv
    have hvalid := hs.isValidChar
    refine ⟨hvalid, ?_⟩
    have hnat := toNat_ofNat hvalid
    rw [encodeChar_eq (by rw [hnat]; exact hs), hnat, hvalue, ← hb]
    simp
  · intro c tail h
    obtain ⟨m, hm, hfirst, -⟩ := first_eq h
    obtain ⟨w, hw⟩ := Begun.exists_fits (p := ⟨1, n, low, high, value⟩) hrange.1 hrange.2.1 hrange.2.2
    obtain ⟨hvalue, hs⟩ := (hfits w).1 hw
    have hlen : m = n + 1 := Shape.eq_of_first hm hs (by rw [← hfirst, hb, hvalue])
    subst hlen
    exact (hfits c.toNat).2 ⟨by omega, hm⟩

theorem first_range {c : Char} {b : UInt8} {tail : Bytes}
    (h : String.utf8EncodeChar c = b :: tail) :
    b.toNat < 0x80 ∨ (0xc2 ≤ b.toNat ∧ b.toNat < 0xf5) := by
  obtain ⟨n, hs, hb, -⟩ := first_eq h
  match n, hs with
  | 0, hs => simp only [Shape, mark] at hs hb; omega
  | 1, hs => simp only [Shape, mark] at hs hb; omega
  | 2, hs => simp only [Shape, mark] at hs hb; omega
  | 3, hs => simp only [Shape, mark] at hs hb; omega

theorem lead_spec (b : UInt8) :
    match lead b with
    | .whole c => String.utf8EncodeChar c = [b]
    | .begun p => Reads [b] p
    | .illegal => ∀ c tail, String.utf8EncodeChar c ≠ b :: tail := by
  fun_cases lead b <;>
    simp only [UInt8.lt_iff_toNat_lt, ← UInt8.toNat_inj, UInt8.reduceToNat] at *
  case case1 v h0 =>
    have hvalid : v.isValidChar := Or.inl (Nat.lt_trans h0 (by decide))
    have hs : Shape 0 (Char.ofNat v).toNat := by rw [toNat_ofNat hvalid]; exact h0
    rw [encodeChar_eq hs, toNat_ofNat hvalid]
    simp [v, mark, trail]
  case case2 =>
    intro c tail he
    have := first_range he
    omega
  case case10 =>
    intro c tail he
    have := first_range he
    omega
  all_goals
    refine reads_first (by simp only [mark]; omega) (by decide) fun v hv => ?_
    simp only [Shape, UInt8.reduceToNat, Nat.reducePow, Nat.reduceAdd] at hv ⊢
    omega

namespace Reads
variable {bs : Bytes} {p q : Begun} {x : UInt8} {c : Char}

theorem byte (hr : Reads bs p) {tail : Bytes} (h : String.utf8EncodeChar c = bs ++ x :: tail) :
    p.Fits c.toNat ∧ x.toNat = 0x80 + c.toNat / 64 ^ p.owed % 64 := by
  have hfits := hr.complete c (x :: tail) h
  have hbytes := (hr.sound _ hfits).2
  rw [Char.ofNat_toNat, h, List.append_cancel_left_eq] at hbytes
  obtain ⟨rfl, -⟩ := List.cons.inj hbytes
  exact ⟨hfits, UInt8.toNat_ofNat_of_lt' (show _ < 256 by omega)⟩

theorem next_cases (p : Begun) (x : UInt8) :
    ((x.toNat < p.low.toNat ∨ p.high.toNat < x.toNat) ∧ p.next x = .misfit) ∨
    (p.low.toNat ≤ x.toNat ∧ x.toNat ≤ p.high.toNat ∧ p.owed = 0 ∧
      p.next x = .whole (Char.ofNat (64 * p.value + x.toNat % 64))) ∨
    (∃ n, p.low.toNat ≤ x.toNat ∧ x.toNat ≤ p.high.toNat ∧ p.owed = n + 1 ∧
      p.next x = .begun ⟨p.seen + 1, n, 0x80, 0xbf, 64 * p.value + x.toNat % 64⟩) := by
  unfold Begun.next
  simp only [Bool.or_eq_true, decide_eq_true_eq, UInt8.lt_iff_toNat_lt]
  by_cases h : x.toNat < p.low.toNat ∨ p.high.toNat < x.toNat
  · exact .inl ⟨h, if_pos h⟩
  · rw [if_neg h]
    cases hn : p.owed with
    | zero => exact .inr (.inl ⟨by omega, by omega, rfl, rfl⟩)
    | succ n => exact .inr (.inr ⟨n, by omega, by omega, rfl, rfl⟩)

theorem misfit (hr : Reads bs p) (h : p.next x = .misfit) (c : Char) (tail : Bytes) :
    String.utf8EncodeChar c ≠ bs ++ x :: tail := by
  intro he
  obtain ⟨⟨-, hlow, hhigh⟩, hx⟩ := hr.byte he
  rcases next_cases p x with ⟨hout, -⟩ | ⟨-, -, -, h'⟩ | ⟨n, -, -, -, h'⟩
  · omega
  · rw [h] at h'; cases h'
  · rw [h] at h'; cases h'

theorem fits_of_byte (hr : Reads bs p) {v : Nat} (hlow : p.low.toNat ≤ x.toNat)
    (hhigh : x.toNat ≤ p.high.toNat) (hv : v / 64 ^ p.owed = 64 * p.value + x.toNat % 64) :
    p.Fits v ∧ UInt8.ofNat (0x80 + v / 64 ^ p.owed % 64) = x := by
  obtain ⟨hl, hle, hh⟩ := hr.range
  have hbyte : 0x80 + v / 64 ^ p.owed % 64 = x.toNat := by omega
  refine ⟨⟨?_, by omega, by omega⟩, by rw [hbyte]; simp⟩
  rw [Nat.pow_succ, ← Nat.div_div_eq_div_mul]
  omega

theorem whole (hr : Reads bs p) (h : p.next x = .whole c) :
    String.utf8EncodeChar c = bs ++ [x] := by
  rcases next_cases p x with ⟨-, h'⟩ | ⟨hlow, hhigh, ho, h'⟩ | ⟨n, -, -, -, h'⟩ <;> rw [h] at h' <;>
    cases h'
  obtain ⟨hfits, hx⟩ := hr.fits_of_byte (v := 64 * p.value + x.toNat % 64) hlow hhigh (by simp [ho])
  have hbytes := (hr.sound _ hfits).2
  rw [ho] at hbytes hx
  rw [hbytes, trail, trail, hx]

theorem next (hr : Reads bs p) (h : p.next x = .begun q) : Reads (bs ++ [x]) q := by
  rcases next_cases p x with ⟨-, h'⟩ | ⟨-, -, -, h'⟩ | ⟨n, hlow, hhigh, ho, h'⟩ <;> rw [h] at h' <;>
    cases h'
  have hrange : (0x80 : Nat) ≤ 0x80 ∧ (0x80 : Nat) ≤ 0xbf ∧ (0xbf : Nat) < 0xc0 := by decide
  refine ⟨by simp [hr.seen], Nat.succ_pos _, hrange, ?_, ?_⟩
  · rintro v ⟨hv, -, -⟩
    obtain ⟨hfits, hx⟩ := hr.fits_of_byte hlow hhigh (by rw [ho]; exact hv)
    obtain ⟨hvalid, hbytes⟩ := hr.sound v hfits
    refine ⟨hvalid, ?_⟩
    rw [ho] at hbytes hx
    rw [hbytes, trail, hx]
    simp
  · intro c tail he
    rw [List.append_assoc] at he
    obtain ⟨⟨hvalue, -, -⟩, hx⟩ := hr.byte he
    rw [ho] at hvalue hx
    have hdiv : c.toNat / 64 ^ (n + 1) / 64 = p.value := by
      rw [Nat.div_div_eq_div_mul, ← Nat.pow_succ]; exact hvalue
    refine ⟨?_, ?_, ?_⟩
    · show c.toNat / 64 ^ (n + 1) = 64 * p.value + x.toNat % 64
      omega
    · show 0x80 ≤ 0x80 + c.toNat / 64 ^ n % 64
      omega
    · show 0x80 + c.toNat / 64 ^ n % 64 ≤ 0xbf
      omega

theorem exists_char (hr : Reads bs p) : ∃ c x tail, String.utf8EncodeChar c = bs ++ x :: tail := by
  obtain ⟨v, hv⟩ := Begun.exists_fits hr.range.1 hr.range.2.1 hr.range.2.2
  exact ⟨Char.ofNat v, _, _, (hr.sound v hv).2⟩

end Reads

/-- The bytes begin a character that more bytes could complete. -/
def Begins (bs : Bytes) : Prop :=
  bs ≠ [] ∧ ∃ c x tail, String.utf8EncodeChar c = bs ++ x :: tail

/-- Bytes that begin no text, and how many of them are no part of any: as many as begin a character
in front of a byte that goes on with none of these, but one at least. -/
inductive Fault : Bytes → Option Nat → Prop
  | cutOff {bs : Bytes} (h : Begins bs) : Fault bs none
  | misfit {bs : Bytes} {x : UInt8} (rest : Bytes) (h : bs = [] ∨ Begins bs)
      (hx : ∀ c tail, String.utf8EncodeChar c ≠ bs ++ x :: tail) :
      Fault (bs ++ x :: rest) (some (max 1 bs.length))

/-- What decoding makes of bytes that start at `pos`. -/
inductive Decoded (pos : Nat) : Bytes → Except Invalid (List Char) → Prop
  | ok (cs : List Char) : Decoded pos (encode cs) (.ok cs)
  | error (cs : List Char) {tail : Bytes} {n : Option Nat} (h : Fault tail n) :
      Decoded pos (encode cs ++ tail) (.error ⟨pos + (encode cs).length, n⟩)

theorem Reads.begins {bs : Bytes} {p : Begun} (hr : Reads bs p) : Begins bs :=
  ⟨List.ne_nil_of_length_pos (hr.seen ▸ hr.pos), hr.exists_char⟩

theorem Decoded.cons {pos : Nat} {c : Char} {bs b : Bytes} {r : Except Invalid (List Char)}
    (hc : String.utf8EncodeChar c = bs) (h : Decoded (pos + bs.length) b r) :
    Decoded pos (bs ++ b) (r.map (c :: ·)) := by
  subst hc
  cases h with
  | ok cs => exact .ok (c :: cs)
  | error cs hf =>
    have : Decoded pos _ _ := .error (c :: cs) hf
    simpa [Nat.add_assoc, Except.map] using this

/-- Decoding between two characters and inside of one. -/
theorem decodeFrom_spec (rest : Bytes) (pos : Nat) :
    Decoded pos rest (decodeFrom pos none rest) ∧
    ∀ p bs, Reads bs p → Decoded pos (bs ++ rest) (decodeFrom pos (some p) rest) := by
  -- both at once: a first byte leads from the one to the other, a last byte back
  induction rest generalizing pos with
  | nil =>
    refine ⟨.ok [], fun p bs hr => ?_⟩
    rw [List.append_nil]
    exact Decoded.error [] (.cutOff hr.begins)
  | cons x rest ih =>
    refine ⟨?_, fun p bs hr => ?_⟩
    · rw [decodeFrom]
      have hlead := lead_spec x
      generalize lead x = l at hlead
      cases l with
      | whole c => exact Decoded.cons hlead (ih (pos + 1)).1
      | begun p => exact (ih pos).2 p [x] hlead
      | illegal => exact Decoded.error [] (.misfit rest (.inl rfl) hlead)
    · rw [decodeFrom]
      cases hn : p.next x with
      | whole c =>
        have hlen : pos + p.seen + 1 = pos + (bs ++ [x]).length := by simp [hr.seen, Nat.add_assoc]
        have := Decoded.cons (hr.whole hn) (ih (pos + (bs ++ [x]).length)).1
        simpa [hlen] using this
      | begun q =>
        have := (ih pos).2 q (bs ++ [x]) (hr.next hn)
        simpa using this
      | misfit =>
        have : Decoded pos _ _ := .error [] (.misfit rest (.inr hr.begins) (hr.misfit hn))
        have hpos := hr.pos
        rw [hr.seen, Nat.max_eq_right hpos] at this
        simpa using this

theorem char_eq_of_append {c d : Char} {l l' : Bytes}
    (h : String.utf8EncodeChar c ++ l = String.utf8EncodeChar d ++ l') : c = d := by
  have hc := ByteArray.utf8DecodeChar?_utf8EncodeChar_append (b := l.toByteArray) (c := c)
  rw [← List.toByteArray_append, h, List.toByteArray_append,
    ByteArray.utf8DecodeChar?_utf8EncodeChar_append] at hc
  exact (Option.some.inj hc).symm

theorem Begins.ne_char {bs : Bytes} (h : Begins bs) (d : Char) (l : Bytes) :
    bs ≠ String.utf8EncodeChar d ++ l := by
  rintro rfl
  obtain ⟨-, c, x, tail, hc⟩ := h
  rw [List.append_assoc] at hc
  have hcd : c = d := char_eq_of_append (by rw [List.append_nil, hc])
  have hlen := congrArg List.length hc
  simp [hcd] at hlen

theorem Fault.ne_char {tail : Bytes} {n : Option Nat} (h : Fault tail n) (d : Char) (l : Bytes) :
    tail ≠ String.utf8EncodeChar d ++ l := by
  cases h with
  | cutOff h => exact h.ne_char d l
  | @misfit bs x rest h hx =>
    intro he
    have hstart : ∀ l', bs ≠ String.utf8EncodeChar d ++ l' := by
      rintro l' rfl
      rcases h with h | h
      · exact absurd (List.append_eq_nil_iff.1 h).1 String.utf8EncodeChar_ne_nil
      · exact h.ne_char d l' rfl
    rcases List.append_eq_append_iff.1 he with ⟨as, hd, has⟩ | ⟨as, hbs, -⟩
    · cases as with
      | nil => exact hstart [] (by simpa using hd.symm)
      | cons y as =>
        obtain ⟨rfl, -⟩ := List.cons.inj has
        exact hx d as hd
    · exact hstart as hbs

theorem Fault.length_le {tail : Bytes} {n : Option Nat} (h : Fault tail n) {cs ds : List Char}
    {rest : Bytes} (he : encode cs ++ tail = encode ds ++ rest) :
    (encode ds).length ≤ (encode cs).length := by
  induction ds generalizing cs with
  | nil => simp
  | cons d ds ih =>
    rw [encode_cons, List.append_assoc] at he
    cases cs with
    | nil => exact absurd he (h.ne_char d _)
    | cons c cs =>
      rw [encode_cons, List.append_assoc] at he
      have hcd := char_eq_of_append he
      subst hcd
      have := ih (List.append_cancel_left he)
      simp only [encode_cons, List.length_append]
      omega

theorem Fault.ne_nil {tail : Bytes} {n : Option Nat} (h : Fault tail n) : tail ≠ [] := by
  cases h with
  | cutOff h => exact h.1
  | misfit rest h hx => simp

theorem Fault.ne_text {tail : Bytes} {n : Option Nat} (h : Fault tail n) (cs ds : List Char) :
    encode cs ++ tail ≠ encode ds := by
  intro he
  have hle := h.length_le (show encode cs ++ tail = encode ds ++ [] by rw [he, List.append_nil])
  have hlen := congrArg List.length he
  rw [List.length_append] at hlen
  exact h.ne_nil (List.length_eq_zero_iff.1 (by omega))

/-- Of two errors in the same bytes, neither stands behind the other. -/
theorem misfit_length_le {bs bs' l l' : Bytes} {x y : UInt8} (hb : bs' = [] ∨ Begins bs')
    (hx : ∀ c tail, String.utf8EncodeChar c ≠ bs ++ x :: tail) (he : bs ++ x :: l = bs' ++ y :: l') :
    bs'.length ≤ bs.length := by
  rcases List.append_eq_append_iff.1 he with ⟨as, rfl, has⟩ | ⟨as, rfl, -⟩
  · cases as with
    | nil => simp
    | cons z as =>
      obtain ⟨rfl, -⟩ := List.cons.inj has
      rcases hb with hb | ⟨-, c, z, tail, hc⟩
      · simp at hb
      · exact absurd (by rw [hc]; simp) (hx c (as ++ z :: tail))
  · simp

theorem Begins.ne_misfit {bs rest : Bytes} {x : UInt8} (h : Begins (bs ++ x :: rest))
    (hx : ∀ c tail, String.utf8EncodeChar c ≠ bs ++ x :: tail) : False := by
  obtain ⟨-, c, y, tail, hc⟩ := h
  exact hx c (rest ++ y :: tail) (by rw [hc]; simp)

theorem Fault.unique {tail : Bytes} {n k : Option Nat} (hn : Fault tail n) (hk : Fault tail k) :
    n = k := by
  cases hn with
  | cutOff h =>
    cases hk with
    | cutOff => rfl
    | misfit rest hb hx => exact (h.ne_misfit hx).elim
  | @misfit bs x rest hb hx =>
    generalize he : bs ++ x :: rest = tail at hk
    cases hk with
    | cutOff h => exact ((he ▸ h : Begins (bs ++ x :: rest)).ne_misfit hx).elim
    | misfit rest' hb' hx' =>
      have hle := misfit_length_le hb' hx he
      have hge := misfit_length_le hb hx' he.symm
      rw [Nat.le_antisymm hle hge]

theorem encode_injective {cs ds : List Char} (h : encode cs = encode ds) : cs = ds := by
  induction cs generalizing ds with
  | nil =>
    cases ds with
    | nil => rfl
    | cons d ds => exact absurd (List.append_eq_nil_iff.1 h.symm).1 String.utf8EncodeChar_ne_nil
  | cons c cs ih =>
    cases ds with
    | nil => exact absurd (List.append_eq_nil_iff.1 h).1 String.utf8EncodeChar_ne_nil
    | cons d ds =>
      rw [encode_cons, encode_cons] at h
      have hcd := char_eq_of_append h
      subst hcd
      rw [ih (List.append_cancel_left h)]

/-- Where a text ends that is the longest the bytes start with, and what stands there. -/
structure Invalid.Describes (e : Invalid) (b : Bytes) : Prop where
  fault : ∃ s rest, b = ofString s ++ rest ∧ (ofString s).length = e.validUpTo ∧
    Fault rest e.errorLen
  longest : ∀ s rest, b = ofString s ++ rest → (ofString s).length ≤ e.validUpTo

theorem decode_spec (b : Bytes) : Decoded 0 b (decode b) := (decodeFrom_spec b 0).1

/-- Bytes are read as a text just when they are the bytes of that text. -/
theorem text_eq_ok_iff {b : Bytes} {s : String} : text b = .ok s ↔ ofString s = b := by
  have hspec := decode_spec b
  unfold text
  generalize decode b = r at hspec
  cases hspec with
  | ok cs =>
    constructor
    · rintro ⟨⟩
      exact ofString_ofList cs
    · intro h
      rw [← encode_injective h]
      simp [Except.map]
  | error cs hf =>
    constructor
    · rintro ⟨⟩
    · intro h
      exact absurd h.symm (hf.ne_text cs s.toList)

/-- Bytes are refused with an error just when that describes them. -/
theorem text_eq_error_iff {b : Bytes} {e : Invalid} : text b = .error e ↔ e.Describes b := by
  have hspec := decode_spec b
  unfold text
  generalize decode b = r at hspec
  cases hspec with
  | ok cs =>
    constructor
    · rintro ⟨⟩
    · rintro ⟨⟨s, rest, hb, -, hf⟩, -⟩
      exact absurd hb.symm (hf.ne_text s.toList cs)
  | @error cs tail n hf =>
    constructor
    · rintro ⟨⟩
      refine ⟨⟨String.ofList cs, tail, by rw [ofString_ofList], ?_, hf⟩, fun s rest hb => ?_⟩
      · rw [ofString_ofList, Nat.zero_add]
      · rw [Nat.zero_add]; exact hf.length_le hb
    · rintro ⟨⟨s, rest, hb, hlen, hf'⟩, -⟩
      have hle := hf.length_le hb
      have hge := hf'.length_le hb.symm
      obtain ⟨hcs, htail⟩ := List.append_inj hb (Nat.le_antisymm hge hle)
      subst htail
      rw [Except.map, hf.unique hf', hcs, Nat.zero_add, hlen]

end Rematch.Utf8
