import Rematch.Proofs.Aligned
import Rematch.Proofs.Wellformed

/-! # Walking along a subject

From an offset one comes to the next by the unit that stands there. From the start of a text on, the walk
comes to the offset of each character in turn (`walk_zero`), and so to all boundaries and to nothing else.
Inside of a character it goes on by single bytes, which cannot pass over the next boundary
(`walk_inside`). -/

namespace Rematch

theorem Utf8.length_encode_take_succ {cs : List Char} {k : Nat} (hk : k < cs.length) :
    (encode (cs.take (k + 1))).length = (encode (cs.take k)).length + cs[k].utf8Size := by
  rw [List.take_add_one, List.getElem?_eq_getElem hk, Option.toList_some, encode_append, encode_cons,
    encode_nil, List.append_nil, List.length_append, String.length_utf8EncodeChar]

namespace Subject
variable {s : Subject} {t : String} {p k : Nat}

/-- Where one is from `pos` on after so many units. -/
def walk (s : Subject) (pos : Nat) : (units : Nat) → Nat
  | 0 => pos
  | k + 1 => s.walk (pos + s.unitAt pos) k

theorem walk_succ (s : Subject) (pos k : Nat) :
    s.walk pos (k + 1) = s.walk pos k + s.unitAt (s.walk pos k) := by
  induction k generalizing pos with
  | zero => rfl
  | succ k ih => rw [walk, ih, walk]

/-- The walk from the start comes to the characters of a text one by one. -/
theorem walk_zero (t : String) (k : Nat) :
    (text t).walk 0 k = (Utf8.encode (t.toList.take k)).length := by
  induction k with
  | zero => rfl
  | succ k ih =>
    rw [walk_succ, ih]
    rcases Nat.lt_or_ge k t.toList.length with hk | hk
    · have hsplit : t.toList = t.toList.take k ++ t.toList[k] :: t.toList.drop (k + 1) := by
        rw [← List.drop_eq_getElem_cons hk, List.take_append_drop]
      rw [unitAt_text hsplit, Utf8.length_encode_take_succ hk]
    · have hend : (text t).size ≤ (Utf8.encode t.toList).length := Nat.le_refl _
      rw [List.take_of_length_le hk, List.take_of_length_le (Nat.le_succ_of_le hk), unitAt_of_le hend,
        Nat.add_zero]

theorem exists_walk_iff : (∃ k ≤ t.length, (text t).walk 0 k = p) ↔ IsBoundary t.toList p := by
  simp only [walk_zero, isBoundary_iff]
  constructor
  · rintro ⟨k, -, rfl⟩
    exact ⟨t.toList.take k, t.toList.drop k, (List.take_append_drop k _).symm, rfl⟩
  · rintro ⟨before, after, ht, rfl⟩
    have hlen : before.length ≤ t.length := by
      rw [← String.length_toList, ht, List.length_append]
      exact Nat.le_add_right _ _
    exact ⟨before.length, hlen, by rw [ht, List.take_left]⟩

theorem walk_lt_succ (hk : k < t.length) : (text t).walk 0 k < (text t).walk 0 (k + 1) := by
  rw [← String.length_toList] at hk
  rw [walk_zero, walk_zero, Utf8.length_encode_take_succ hk]
  exact Nat.lt_add_of_pos_right t.toList[k].utf8Size_pos

theorem walk_length (t : String) : (text t).walk 0 t.length = (text t).size := by
  rw [walk_zero, ← String.length_toList, List.take_length]
  rfl

/-- As long as it comes to no boundary, the walk goes on byte by byte. -/
theorem walk_of_not_isBoundary (hp : p + k ≤ (text t).size)
    (h : ∀ j < k, ¬ IsBoundary t.toList (p + j)) : (text t).walk p k = p + k := by
  induction k with
  | zero => rfl
  | succ k ih =>
    have hd : dropBytes t.toList (p + k) = none :=
      Option.not_isSome_iff_eq_none.1 (h k (Nat.lt_succ_self k))
    rw [walk_succ, ih (by omega) fun j hj => h j (by omega), unitAt_inside (by omega) hd, Nat.add_assoc]

/-- From inside of a character the walk comes to the boundary behind it. -/
theorem walk_inside (hp : p ≤ (text t).size) (h : ¬ IsBoundary t.toList p) :
    ∃ k, 0 < k ∧ IsBoundary t.toList (p + k) ∧ (∀ j < k, ¬ IsBoundary t.toList (p + j)) ∧
      ∀ j ≤ k, (text t).walk p j = p + j := by
  obtain ⟨before, c, after, n, ht, h0, hn, rfl⟩ := exists_inside hp h
  have hstop : IsBoundary t.toList ((Utf8.encode before).length + n + (c.utf8Size - n)) := by
    rw [Nat.add_assoc, Nat.add_sub_cancel' (Nat.le_of_lt hn)]
    exact isBoundary_iff.2 ⟨before ++ [c], after, by simp [ht], by simp⟩
  have hno : ∀ j < c.utf8Size - n, ¬ IsBoundary t.toList ((Utf8.encode before).length + n + j) := by
    intro j hj
    rw [ht, Nat.add_assoc]
    exact not_isBoundary_inside (by omega) (by omega)
  have hle : _ ≤ (text t).size := isBoundary_le hstop
  exact ⟨c.utf8Size - n, by omega, hstop, hno, fun j hj =>
    walk_of_not_isBoundary (by omega) fun i hi => hno i (by omega)⟩

theorem exists_tail_eq_text_iff :
    (∃ u, s.tail p = .text u) ↔ ∃ t, s = .text t ∧ IsBoundary t.toList p := by
  cases s with
  | bytes b => simp [tail]
  | text t =>
    simp only [tail, text.injEq, exists_eq_left', IsBoundary, Option.isSome_iff_exists]
    cases dropBytes t.toList p <;> simp

/-- **Units walk the characters of a text.** From the start of a text, unit by unit, one comes to all
boundaries in order and to nothing else, up to the end; from inside of a character, to the next boundary.
Before the end a unit is not empty and not too long, from the end on it is empty. A tail has the bytes
from its offset on, and is a text behind a boundary of a text and nowhere else; a tail of a tail has the
bytes of one tail, and is that tail if the first cut splits no character. -/
theorem units_walk_characters (s : Subject) :
    (∀ t, s = .text t →
      (∀ k, s.walk 0 k = (Utf8.encode (t.toList.take k)).length) ∧
      (∀ p, (∃ k ≤ t.length, s.walk 0 k = p) ↔ IsBoundary t.toList p) ∧
      (∀ k < t.length, s.walk 0 k < s.walk 0 (k + 1)) ∧ s.walk 0 t.length = s.size ∧
      ∀ p ≤ s.size, ¬ IsBoundary t.toList p → ∃ k, 0 < k ∧ IsBoundary t.toList (p + k) ∧
        (∀ j < k, ¬ IsBoundary t.toList (p + j)) ∧ ∀ j ≤ k, s.walk p j = p + j) ∧
    (∀ p < s.size, 1 ≤ s.unitAt p ∧ p + s.unitAt p ≤ s.size) ∧
    (∀ p, s.size ≤ p → s.unitAt p = 0) ∧
    (∀ p ≤ s.size, (s.tail p).toBytes = s.toBytes.drop p ∧
      ((∃ u, s.tail p = .text u) ↔ ∃ t, s = .text t ∧ IsBoundary t.toList p)) ∧
    ∀ p q, p + q ≤ s.size → ((s.tail p).tail q).toBytes = (s.tail (p + q)).toBytes ∧
      ((∃ b, s = .bytes b) ∨ (∃ t, s = .text t ∧ IsBoundary t.toList p) →
        (s.tail p).tail q = s.tail (p + q)) := by
  refine ⟨?_, fun p => unitAt_bounds, fun p => unitAt_of_le,
    fun p _ => ⟨toBytes_tail s p, exists_tail_eq_text_iff⟩, fun p q _ => ⟨?_, ?_⟩⟩
  · rintro t rfl
    exact ⟨walk_zero t, fun p => exists_walk_iff, fun k => walk_lt_succ, walk_length t,
      fun p => walk_inside⟩
  · rw [toBytes_tail, toBytes_tail, toBytes_tail, List.drop_drop]
  · rintro (⟨b, rfl⟩ | ⟨t, rfl, hb⟩)
    · exact tail_tail (s := .bytes b) trivial q
    · exact tail_tail (s := .text t) hb q

/-- Characters of one to four bytes, from the start and from inside of the last one. -/
theorem units_walk_characters_sizes :
    let s : Subject := .text "yé€😀"
    (List.range 6).map (s.walk 0) = [0, 1, 3, 6, 10, 10] ∧ s.walk 0 "yé€😀".length = s.size ∧
    (∃ k, 0 < k ∧ IsBoundary "yé€😀".toList (7 + k) ∧
      (∀ j < k, ¬ IsBoundary "yé€😀".toList (7 + j)) ∧ ∀ j ≤ k, s.walk 7 j = 7 + j) ∧
    1 ≤ s.unitAt 6 ∧ 6 + s.unitAt 6 ≤ s.size ∧ s.unitAt 10 = 0 ∧
    (s.tail 3).tail 3 = s.tail 6 ∧ s.tail 6 = .text "😀" ∧ s.tail 7 = .bytes [0x9f, 0x98, 0x80] := by
  intro s
  obtain ⟨htext, hbounds, hend, -, htails⟩ := units_walk_characters s
  obtain ⟨-, -, -, hlength, hinside⟩ := htext _ rfl
  obtain ⟨hpos, hle⟩ := hbounds 6 (by decide)
  exact ⟨by decide, hlength, hinside 7 (by decide) (by decide), hpos, hle, hend 10 (by decide),
    (htails 3 3 (by decide)).2 (.inr ⟨_, rfl, by decide⟩), by decide, by decide⟩

end Subject

end Rematch
