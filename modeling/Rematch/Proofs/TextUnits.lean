import Rematch.Proofs.GroupText
import Rematch.Proofs.SearchFrom

/-! # The units of a text

In UTF mode a machine takes the bytes of a subject for characters, by what the first byte of each says.
If they are those of a text, it comes from a boundary to boundaries in all of its steps but one: a single
byte that is matched as such may end inside of a character (`Machine.carried_isBoundary`). -/

namespace Rematch.Regex
open Subject

namespace Units
variable {cs before after : List Char} {c : Char} {i j k : Nat}

/-- The bytes of a text, to be read as characters. -/
def ofText (cs : List Char) : Units := ⟨(Utf8.encode cs).toArray, true⟩

theorem size_ofText (cs : List Char) : (ofText cs).size = (Utf8.encode cs).length := rfl

theorem extends_ofText (before after : List Char) :
    Extends (Utf8.encode before).length (ofText (before ++ after)) (ofText after) := by
  have h := extends_drop (b := Utf8.encode (before ++ after)) (q := (Utf8.encode before).length)
    (by rw [Utf8.encode_append, List.length_append]; exact Nat.le_add_right _ _) true
  rwa [Utf8.encode_append, List.drop_left, ← Utf8.encode_append] at h

theorem byte_ofText_cons {b : UInt8} {tail : Bytes} (h : String.utf8EncodeChar c = b :: tail) :
    (ofText (c :: after)).byte 0 = b.toNat ∧
      ∀ k (hk : k < tail.length), (ofText (c :: after)).byte (k + 1) = tail[k].toNat := by
  have hbytes : Utf8.encode (c :: after) = b :: (tail ++ Utf8.encode after) := by
    rw [Utf8.encode_cons, h, List.cons_append]
  refine ⟨by simp [ofText, byte, hbytes], fun k hk => ?_⟩
  simp [ofText, byte, hbytes, List.getElem?_append_left hk, List.getElem?_eq_getElem hk]

/-- The first byte of a character says how many it has. -/
theorem width_first : width ((ofText (c :: after)).byte 0) = c.utf8Size := by
  obtain ⟨b, tail, hc⟩ := List.exists_cons_of_ne_nil (String.utf8EncodeChar_ne_nil (c := c))
  have hlen := String.length_utf8EncodeChar c
  obtain ⟨n, hs, hb, rfl⟩ := Utf8.first_eq hc
  rw [hc, List.length_cons, Utf8.length_trail] at hlen
  rw [(byte_ofText_cons hc).1, hb, ← hlen]
  unfold width
  match n, hs with
  | 0, hs | 1, hs | 2, hs | 3, hs =>
    simp only [Utf8.Shape, Utf8.mark] at hs ⊢
    split_ifs <;> omega

theorem byte_first : (ofText (c :: after)).byte 0 / 64 ≠ 2 := by
  obtain ⟨b, tail, hc⟩ := List.exists_cons_of_ne_nil (String.utf8EncodeChar_ne_nil (c := c))
  have hrange := Utf8.first_range hc
  rw [(byte_ofText_cons hc).1]
  omega

theorem byte_inside (h0 : 0 < k) (hk : k < c.utf8Size) :
    (ofText (c :: after)).byte k / 64 = 2 := by
  obtain ⟨b, tail, hc⟩ := List.exists_cons_of_ne_nil (String.utf8EncodeChar_ne_nil (c := c))
  have hlen := String.length_utf8EncodeChar c
  obtain ⟨n, -, -, rfl⟩ := Utf8.first_eq hc
  rw [hc, List.length_cons] at hlen
  obtain ⟨k, rfl⟩ := Nat.exists_eq_succ_of_ne_zero (Nat.ne_of_gt h0)
  have hk : k < (Utf8.trail n c.toNat).length := by omega
  have hrange := Utf8.trail_range (List.getElem_mem hk)
  rw [(byte_ofText_cons hc).2 k hk]
  omega

/-- An offset is a boundary unless it is that of a byte that goes on with a character. -/
theorem isBoundary_iff_byte (hi : i ≤ (ofText cs).size) :
    IsBoundary cs i ↔ (ofText cs).byte i / 64 ≠ 2 := by
  constructor
  · intro h
    obtain ⟨before, after, rfl, rfl⟩ := isBoundary_iff.1 h
    have hbyte := (extends_ofText before after).byte 0
    rw [Nat.add_zero] at hbyte
    rw [hbyte]
    cases after with
    | nil => exact show 0 / 64 ≠ 2 by decide
    | cons c after => exact byte_first
  · refine fun h => Classical.byContradiction fun hb => h ?_
    obtain ⟨before, c, after, k, rfl, h0, hk, rfl⟩ := exists_inside hi hb
    rw [(extends_ofText before (c :: after)).byte, byte_inside h0 hk]

/-- At a boundary before the end stands a character. -/
theorem exists_char (h : IsBoundary cs i) (hi : i < (ofText cs).size) : ∃ before c after,
    cs = before ++ c :: after ∧ i = (Utf8.encode before).length := by
  obtain ⟨before, after, rfl, rfl⟩ := isBoundary_iff.1 h
  cases after with
  | nil => rw [List.append_nil] at hi; exact absurd hi (Nat.lt_irrefl _)
  | cons c after => exact ⟨before, c, after, rfl, rfl⟩

theorem isBoundary_behind (before : List Char) (c : Char) (after : List Char) :
    IsBoundary (before ++ c :: after) ((Utf8.encode before).length + c.utf8Size) :=
  isBoundary_iff.2 ⟨before ++ [c], after, by simp, by simp⟩

theorem isBoundary_add_width (h : IsBoundary cs i) (hi : i < (ofText cs).size) :
    IsBoundary cs (i + width ((ofText cs).byte i)) := by
  obtain ⟨before, c, after, rfl, rfl⟩ := exists_char h hi
  have hbyte := (extends_ofText before (c :: after)).byte 0
  rw [Nat.add_zero] at hbyte
  rw [hbyte, width_first]
  exact isBoundary_behind before c after

theorem get_snd (i : Nat) : ((ofText cs).get i).2 = width ((ofText cs).byte i) := by
  unfold get
  generalize (ofText cs).byte i = a
  dsimp only
  unfold width
  split
  · next h =>
    have : a < 0xc0 := by simpa [ofText] using h
    rw [if_pos this]
  · next h =>
    have : ¬ a < 0xc0 := by simpa [ofText] using h
    rw [if_neg this]
    split_ifs <;> rfl

theorem isBoundary_get (h : IsBoundary cs i) (hi : i < (ofText cs).size) :
    IsBoundary cs (i + ((ofText cs).get i).2) := by
  rw [get_snd]
  exact isBoundary_add_width h hi

/-- No character runs past the end. -/
def Ends (u : Units) : Prop := ∀ i < u.size, i + (u.get i).2 ≤ u.size

theorem ends_of_bytes (b : Array UInt8) : Ends ⟨b, false⟩ := fun _ hi => hi

theorem ends_ofText (cs : List Char) : (ofText cs).Ends := by
  intro i hi
  by_cases hb : (ofText cs).byte i / 64 = 2
  · have hwidth : width ((ofText cs).byte i) = 1 := by rw [width, if_pos (by omega)]
    rw [get_snd, hwidth]
    exact hi
  · exact isBoundary_le (isBoundary_get ((isBoundary_iff_byte (Nat.le_of_lt hi)).2 hb) hi)

theorem isBoundary_succ (h : IsBoundary cs i) (hi : i < (ofText cs).size)
    (hb : (ofText cs).byte i < 0x80) : IsBoundary cs (i + 1) := by
  have hwidth : width ((ofText cs).byte i) = 1 := by rw [width, if_pos (by omega)]
  rw [← hwidth]
  exact isBoundary_add_width h hi

/-! ### The characters around an offset -/

theorem prev_le (u : Units) (i : Nat) : u.prev i ≤ i := by
  have hfloor : ∀ fuel i, u.floor i fuel ≤ i := by
    intro fuel
    induction fuel with
    | zero => intro i; rw [floor]
    | succ fuel ih =>
      intro i
      cases i with
      | zero => exact Nat.le_refl 0
      | succ i =>
        rw [floor]
        split
        · exact Nat.le_succ_of_le (ih i)
        · exact Nat.le_refl _
  unfold prev
  split
  · exact Nat.le_trans (hfloor 6 (i - 1)) (Nat.sub_le i 1)
  · exact Nat.sub_le i 1

theorem skip_eq {u : Units} {fuel : Nat} (hij : i ≤ j) (hfuel : j - i ≤ fuel) (hj : j ≤ u.size)
    (hbytes : ∀ l, i ≤ l → l < j → u.byte l / 64 = 2) (hstop : u.byte j / 64 ≠ 2) :
    next.skip u i fuel = j := by
  induction fuel generalizing i with
  | zero => exact show i = j from Nat.le_antisymm hij (by omega)
  | succ fuel ih =>
    rw [next.skip]
    rcases Nat.eq_or_lt_of_le hij with rfl | hlt
    · rw [if_neg (by simp [hstop])]
    · rw [if_pos (by simp [hbytes i (Nat.le_refl i) hlt, Nat.lt_of_lt_of_le hlt hj])]
      exact ih hlt (by omega) fun l hl => hbytes l (Nat.le_of_succ_le hl)

theorem floor_eq {u : Units} {fuel : Nat} (hji : j ≤ i) (hfuel : i - j ≤ fuel)
    (hbytes : ∀ l, j < l → l ≤ i → u.byte l / 64 = 2) (hstop : u.byte j / 64 ≠ 2) :
    u.floor i fuel = j := by
  induction fuel generalizing i with
  | zero => rw [floor]; omega
  | succ fuel ih =>
    cases i with
    | zero => exact (Nat.le_zero.1 hji).symm
    | succ i =>
      rw [floor]
      rcases Nat.eq_or_lt_of_le hji with rfl | hlt
      · rw [if_neg hstop]
      · rw [if_pos (hbytes (i + 1) hlt (Nat.le_refl _))]
        exact ih (Nat.le_of_lt_succ hlt) (by omega) fun l hl hle => hbytes l hl (Nat.le_succ_of_le hle)

theorem byte_between (h0 : (Utf8.encode before).length < i)
    (hi : i < (Utf8.encode before).length + c.utf8Size) :
    (ofText (before ++ c :: after)).byte i / 64 = 2 := by
  obtain ⟨k, rfl⟩ := Nat.exists_eq_add_of_lt h0
  rw [Nat.add_assoc] at hi ⊢
  rw [(extends_ofText before (c :: after)).byte]
  exact byte_inside (Nat.succ_pos k) (Nat.lt_of_add_lt_add_left hi)

theorem isBoundary_next (h : IsBoundary cs i) (hi : i < (ofText cs).size) :
    IsBoundary cs ((ofText cs).next i) := by
  obtain ⟨before, c, after, rfl, rfl⟩ := exists_char h hi
  have hstop := isBoundary_behind before c after
  have hle := isBoundary_le hstop
  have hpos := c.utf8Size_pos
  have hfour := c.utf8Size_le_four
  rw [show (ofText (before ++ c :: after)).next (Utf8.encode before).length =
      (Utf8.encode before).length + c.utf8Size from
    skip_eq (by omega) (by omega) hle (fun l hl hlt => byte_between (by omega) hlt)
      ((isBoundary_iff_byte hle).1 hstop)]
  exact hstop

theorem isBoundary_prev (h : IsBoundary cs i) : IsBoundary cs ((ofText cs).prev i) := by
  obtain ⟨front, after, rfl, rfl⟩ := isBoundary_iff.1 h
  rcases List.eq_nil_or_concat front with rfl | ⟨before, c, rfl⟩
  · exact isBoundary_zero _
  rw [List.concat_eq_append, List.append_assoc, List.singleton_append, Utf8.encode_append,
    List.length_append, Utf8.encode_cons, Utf8.encode_nil, List.append_nil, String.length_utf8EncodeChar]
  have hstart : IsBoundary (before ++ c :: after) (Utf8.encode before).length :=
    isBoundary_iff.2 ⟨before, c :: after, rfl, rfl⟩
  have hpos := c.utf8Size_pos
  have hfour := c.utf8Size_le_four
  rw [show (ofText (before ++ c :: after)).prev ((Utf8.encode before).length + c.utf8Size) =
      (Utf8.encode before).length from
    floor_eq (by omega) (by omega) (fun l hl hle => byte_between hl (by omega))
      ((isBoundary_iff_byte (isBoundary_le hstart)).1 hstart)]
  exact hstart

theorem slice_eq_of_bytes {p q n : Nat} (hp : p + n ≤ (ofText cs).size) (hq : q + n ≤ (ofText cs).size)
    (h : ∀ k < n, (ofText cs).byte (p + k) = (ofText cs).byte (q + k)) :
    (Utf8.encode cs : Bytes).slice p (p + n) = (Utf8.encode cs : Bytes).slice q (q + n) := by
  have hbyte : ∀ l (hl : l < (Utf8.encode cs).length),
      (ofText cs).byte l = ((Utf8.encode cs)[l]).toNat := by
    intro l hl
    simp [ofText, byte, List.getElem?_eq_getElem hl]
  rw [size_ofText] at hp hq
  have hlen : ∀ p, p + n ≤ (Utf8.encode cs).length →
      ((Utf8.encode cs : Bytes).slice p (p + n)).length = n := by
    intro p hp
    rw [Bytes.length_slice]
    omega
  refine List.ext_getElem ((hlen p hp).trans (hlen q hq).symm) fun k hk hk' => ?_
  rw [hlen p hp] at hk
  simp only [Bytes.slice, List.getElem_drop, List.getElem_take]
  rw [← UInt8.toNat_inj, ← hbyte _ (by omega), ← hbyte _ (by omega), h k hk]

end Units

/-- The node matches a single byte as such, which may be a part of a character only. -/
def Node.isByte : Node → Bool
  | .piece (.atom .byte) => true
  | _ => false

namespace Machine
variable {m : Machine} {cs : List Char} {pos q : Nat}

theorem equalAt_next {i stop fuel : Nat} (hfuel : stop - i ≤ fuel)
    (h : (m.equalAt i stop pos fuel).next = some q) : q = pos + (stop - i) ∧
      (i < stop → q ≤ m.size) ∧ ∀ k < stop - i, m.subject.byte (i + k) = m.subject.byte (pos + k) := by
  induction fuel generalizing i pos with
  | zero =>
    rw [equalAt] at h
    cases h
    exact ⟨by omega, fun hlt => by omega, fun k hk => by omega⟩
  | succ fuel ih =>
    rw [equalAt] at h
    split_ifs at h with hstop hsize hbyte
    · cases h
      exact ⟨by omega, fun hlt => by omega, fun k hk => by omega⟩
    · obtain ⟨hq, hle, hbytes⟩ := ih (by omega) h
      refine ⟨by omega, fun _ => ?_, fun k hk => ?_⟩
      · rcases Nat.lt_or_ge (i + 1) stop with hlt | hge
        · exact hle hlt
        · omega
      · cases k with
        | zero => exact hbyte
        | succ k =>
          have := hbytes k (by omega)
          rwa [Nat.add_right_comm, Nat.add_right_comm pos, Nat.add_assoc, Nat.add_assoc pos] at this

/-- What a piece matches is a character, a character and a line feed, or a byte. -/
theorem bite_next {p : Piece} (h : (m.bite p pos).next = some q) : pos < m.size ∧
    (q = pos + (m.subject.get pos).2 ∨ (q = pos + 1 ∧ Node.isByte (.piece p) = true) ∨
      ∃ i, i = pos + (m.subject.get pos).2 ∧ i < m.size ∧ m.subject.byte i = 0x0a ∧ q = i + 1) := by
  cases p with
  | atom a =>
    change (m.biteAtom a pos).next = some q at h
    rw [biteAtom] at h
    split at h
    · cases h
    next hsize =>
    refine ⟨Nat.lt_of_not_le hsize, ?_⟩
    dsimp only at h
    split at h
    · cases h; exact .inr (.inl ⟨rfl, rfl⟩)
    · split_ifs at h
      cases h; exact .inl rfl
    · split_ifs at h
      cases h; exact .inl rfl
    · split_ifs at h
      cases h; exact .inl rfl
  | newline =>
    change (m.biteNewline pos).next = some q at h
    rw [biteNewline] at h
    split at h
    · cases h
    next hsize =>
    refine ⟨Nat.lt_of_not_le hsize, ?_⟩
    dsimp only at h
    split_ifs at h with hcr hend hlf hother
    · cases h; exact .inl rfl
    · cases h; exact .inr (.inr ⟨_, rfl, Nat.lt_of_not_le hend, hlf, rfl⟩)
    · cases h; exact .inl rfl
    · cases h; exact .inl rfl

theorem sameAt_next {P : Nat → Prop} (hget : ∀ i, P i → i < m.size → P (i + (m.subject.get i).2))
    {i stop fuel : Nat} (hstop : stop ≤ m.size) (hi : P i) (hpos : P pos)
    (h : (m.sameAt i stop pos fuel).next = some q) : P q := by
  induction fuel generalizing i pos with
  | zero => cases h; exact hpos
  | succ fuel ih =>
    rw [sameAt] at h
    split at h
    · cases h; exact hpos
    next hlt =>
    split at h
    · cases h
    next hsize =>
    dsimp only at h
    split at h
    · exact ih (hget i hi (Nat.lt_of_lt_of_le (Nat.lt_of_not_le hlt) hstop))
        (hget pos hpos (Nat.lt_of_not_le hsize)) h
    · cases h

/-! ### Offsets inside of the subject -/

/-- A machine stays inside of its subject, if no character in it runs past the end. -/
theorem carried_le (hm : m.subject.Ends) :
    Carried m (fun _ => false) (· ≤ m.size) (· ≤ m.size) where
  repeated _ _ := rfl
  bite p pos q _ hpos h := by
    obtain ⟨hlt, rfl | ⟨rfl, -⟩ | ⟨i, -, hi, -, rfl⟩⟩ := bite_next h
    · exact hm pos hlt
    · exact hlt
    · exact hi
  prev pos hpos := Nat.le_trans (m.subject.prev_le pos) hpos
  same s pos q hstart hstop hpos h :=
    sameAt_next (P := (· ≤ m.size)) (fun i _ hi => hm i hi) hstop hstart hpos h
  equal s pos q hstart hstop hpos h := by
    obtain ⟨rfl, hsize, -⟩ := equalAt_next (Nat.le_succ _) h
    rcases Nat.lt_or_ge s.start s.stop with hlt | hge
    · exact hsize hlt
    · rwa [Nat.sub_eq_zero_of_le hge]
  keep _ _ hpos := hpos

/-! ### Offsets between characters -/

variable (hm : m.subject = .ofText cs)
include hm

theorem isBoundary_get (hpos : IsBoundary cs pos) (hlt : pos < m.size) :
    IsBoundary cs (pos + (m.subject.get pos).2) := by
  rw [size, hm] at hlt
  rw [hm]
  exact Units.isBoundary_get hpos hlt

theorem isBoundary_bite {p : Piece} (hp : Node.isByte (.piece p) = false) (hpos : IsBoundary cs pos)
    (h : (m.bite p pos).next = some q) : IsBoundary cs q := by
  obtain ⟨hlt, rfl | ⟨-, hbyte⟩ | ⟨i, rfl, hi, hlf, rfl⟩⟩ := bite_next h
  · exact isBoundary_get hm hpos hlt
  · rw [hp] at hbyte; cases hbyte
  · have hbehind := isBoundary_get hm hpos hlt
    rw [size] at hi
    rw [hm] at hi hlf hbehind ⊢
    exact Units.isBoundary_succ hbehind hi (by omega)

theorem isBoundary_equalAt {i stop : Nat} (hi : IsBoundary cs i) (hstop : IsBoundary cs stop)
    (hpos : IsBoundary cs pos) (h : (m.equalAt i stop pos (stop - i + 1)).next = some q) :
    IsBoundary cs q := by
  obtain ⟨rfl, hsize, hbytes⟩ := equalAt_next (Nat.le_succ _) h
  rcases Nat.lt_or_ge i stop with hlt | hge
  · -- the copy has the bytes of the original, which are a text
    obtain ⟨mid, hmid⟩ := exists_slice hi hstop (Nat.le_of_lt hlt)
    have hle : i + (stop - i) ≤ (Units.ofText cs).size := by
      have := isBoundary_le hstop
      rw [Units.size_ofText]
      omega
    have hsize := hsize hlt
    rw [size, hm] at hsize
    rw [hm] at hbytes
    have hcopy := Units.slice_eq_of_bytes hle hsize hbytes
    rw [Nat.add_sub_cancel' (Nat.le_of_lt hlt), hmid] at hcopy
    exact (isBoundary_of_slice_eq (by omega) hsize hcopy.symm).2
  · rwa [Nat.sub_eq_zero_of_le hge]

theorem carried_isBoundary : Carried m Node.isByte (IsBoundary cs) (IsBoundary cs) where
  repeated _ _ := rfl
  bite _ _ _ hp hpos h := isBoundary_bite hm hp hpos h
  prev pos hpos := by rw [hm]; exact Units.isBoundary_prev hpos
  same _ _ _ hstart hstop hpos h := by
    have hle := isBoundary_le hstop
    exact sameAt_next (fun i hi hlt => isBoundary_get hm hi hlt) (by rw [size, hm]; exact hle) hstart hpos h
  equal _ _ _ hstart hstop hpos h := isBoundary_equalAt hm hstart hstop hpos h
  keep _ _ hpos := hpos

end Machine

end Rematch.Regex
