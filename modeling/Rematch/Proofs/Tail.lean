import Rematch.Subject

/-! # Tails and units of subjects

What stands behind an offset of a subject, as bytes and as characters. -/

namespace Rematch

@[simp] theorem Utf8.ofString_ofList (cs : List Char) :
    Utf8.ofString (String.ofList cs) = Utf8.encode cs := by
  simp [Utf8.ofString]

namespace Subject

/-- A character is dropped with all of its bytes. -/
theorem dropBytes_cons (c : Char) (cs : List Char) (n : Nat) :
    dropBytes (c :: cs) (c.utf8Size + n) = dropBytes cs n := by
  have hc := c.utf8Size_pos
  obtain ⟨k, hk⟩ : ∃ k, c.utf8Size + n = k + 1 := ⟨c.utf8Size + n - 1, by omega⟩
  rw [hk, dropBytes, if_pos (by omega), show k + 1 - c.utf8Size = n by omega]

theorem dropBytes_append (before cs : List Char) (n : Nat) :
    dropBytes (before ++ cs) ((Utf8.encode before).length + n) = dropBytes cs n := by
  induction before with
  | nil => simp
  | cons c before ih =>
    rw [List.cons_append, Utf8.encode_cons, List.length_append, String.length_utf8EncodeChar,
      Nat.add_assoc, dropBytes_cons, ih]

/-- The characters behind an offset are those that a start of so many bytes leaves. -/
theorem dropBytes_eq_some_iff {cs rest : List Char} {n : Nat} :
    dropBytes cs n = some rest ↔
      ∃ before, cs = before ++ rest ∧ (Utf8.encode before).length = n := by
  constructor
  · intro h
    fun_induction dropBytes cs n with
    | case1 cs => cases h; exact ⟨[], rfl, rfl⟩
    | case2 => cases h
    | case3 c cs n hle ih =>
      obtain ⟨before, rfl, hl⟩ := ih h
      exact ⟨c :: before, rfl, by simp [hl]; omega⟩
    | case4 => cases h
  · rintro ⟨before, rfl, rfl⟩
    have hrest : dropBytes rest 0 = some rest := by simp [dropBytes]
    exact (dropBytes_append before rest 0).trans hrest

theorem isBoundary_iff {cs : List Char} {n : Nat} :
    IsBoundary cs n ↔ ∃ before after, cs = before ++ after ∧ (Utf8.encode before).length = n := by
  unfold IsBoundary
  rw [Option.isSome_iff_exists]
  constructor
  · rintro ⟨rest, h⟩
    obtain ⟨before, hcs, hl⟩ := dropBytes_eq_some_iff.1 h
    exact ⟨before, rest, hcs, hl⟩
  · rintro ⟨before, after, hcs, hl⟩
    exact ⟨after, dropBytes_eq_some_iff.2 ⟨before, hcs, hl⟩⟩

theorem dropBytes_add {cs rest : List Char} {p : Nat} (h : dropBytes cs p = some rest) (q : Nat) :
    dropBytes cs (p + q) = dropBytes rest q := by
  obtain ⟨before, rfl, rfl⟩ := dropBytes_eq_some_iff.1 h
  exact dropBytes_append before rest q

@[simp] theorem toBytes_tail (s : Subject) (pos : Nat) :
    (s.tail pos).toBytes = s.toBytes.drop pos := by
  cases s with
  | bytes b => rfl
  | text t =>
    simp only [tail]
    cases h : dropBytes t.toList pos with
    | none => rfl
    | some rest =>
      obtain ⟨before, ht, hl⟩ := dropBytes_eq_some_iff.1 h
      simp [toBytes, Utf8.ofString, ht, ← hl]

@[simp] theorem size_tail (s : Subject) (pos : Nat) : (s.tail pos).size = s.size - pos := by
  simp [size]

@[simp] theorem tail_zero (s : Subject) : s.tail 0 = s := by
  cases s with
  | bytes b => rfl
  | text t => simp [tail, dropBytes]

theorem unitAt_of_le {s : Subject} {pos : Nat} (h : s.size ≤ pos) : s.unitAt pos = 0 := by
  simp [unitAt, h]

theorem unitAt_bytes {b : Bytes} {pos : Nat} (h : pos < b.length) :
    (Subject.bytes b).unitAt pos = 1 := by
  have hs : ¬ (Subject.bytes b).size ≤ pos := Nat.not_le.2 h
  simp only [unitAt, if_neg hs]

theorem unitAt_text {t : String} {before after : List Char} {c : Char}
    (h : t.toList = before ++ c :: after) :
    (Subject.text t).unitAt (Utf8.encode before).length = c.utf8Size := by
  have hd : dropBytes t.toList (Utf8.encode before).length = some (c :: after) :=
    dropBytes_eq_some_iff.2 ⟨before, h, rfl⟩
  have hs : ¬ (Subject.text t).size ≤ (Utf8.encode before).length := by
    have hc := c.utf8Size_pos
    simp [size, toBytes, Utf8.ofString, h]
    omega
  simp only [unitAt, if_neg hs, hd]

theorem unitAt_inside {t : String} {pos : Nat} (h : pos < (Subject.text t).size)
    (hd : dropBytes t.toList pos = none) : (Subject.text t).unitAt pos = 1 := by
  simp only [unitAt, if_neg (Nat.not_le.2 h), hd]

/-- A unit is not empty and does not reach beyond the end. -/
theorem unitAt_bounds {s : Subject} {pos : Nat} (h : pos < s.size) :
    1 ≤ s.unitAt pos ∧ pos + s.unitAt pos ≤ s.size := by
  cases s with
  | bytes b =>
    have hu : (Subject.bytes b).unitAt pos = 1 := unitAt_bytes h
    rw [hu]
    exact ⟨Nat.le_refl 1, h⟩
  | text t =>
    cases hd : dropBytes t.toList pos with
    | none =>
      rw [unitAt_inside h hd]
      exact ⟨Nat.le_refl 1, h⟩
    | some rest =>
      obtain ⟨before, ht, rfl⟩ := dropBytes_eq_some_iff.1 hd
      have hs : (Subject.text t).size = (Utf8.encode before).length + (Utf8.encode rest).length := by
        simp [size, toBytes, Utf8.ofString, ht]
      cases rest with
      | nil =>
        rw [hs] at h
        exact absurd h (by simp)
      | cons c after =>
        rw [unitAt_text ht, hs]
        refine ⟨c.utf8Size_pos, ?_⟩
        simp only [Utf8.encode_cons, List.length_append, String.length_utf8EncodeChar]
        omega

/-- The tail at the offset is of the subject's own form: anywhere in bytes, and between two characters
of a text. -/
def Splits (s : Subject) (pos : Nat) : Prop :=
  match s with
  | bytes _ => True
  | text t => IsBoundary t.toList pos

instance (s : Subject) (pos : Nat) : Decidable (s.Splits pos) :=
  match s with
  | bytes _ => .isTrue trivial
  | text t => inferInstanceAs (Decidable (IsBoundary t.toList pos))

/-- A tail of a tail is a tail, where the first cut splits no character. -/
theorem tail_tail {s : Subject} {p : Nat} (h : s.Splits p) (q : Nat) :
    (s.tail p).tail q = s.tail (p + q) := by
  cases s with
  | bytes b => simp [tail]
  | text t =>
    obtain ⟨rest, hrest⟩ := Option.isSome_iff_exists.1 h
    obtain ⟨before, ht, hl⟩ := dropBytes_eq_some_iff.1 hrest
    have hdrop : (Utf8.ofString t).drop (p + q) = (Utf8.encode rest).drop q := by
      rw [← List.drop_drop, Utf8.ofString, ht, Utf8.encode_append, ← hl, List.drop_left]
    simp only [tail, hrest, String.toList_ofList, dropBytes_add hrest, Utf8.ofString_ofList, hdrop]

theorem unitAt_tail {s : Subject} {p : Nat} (h : s.Splits p) (q : Nat) :
    (s.tail p).unitAt q = s.unitAt (p + q) := by
  have hsize : (s.tail p).size ≤ q ↔ s.size ≤ p + q := by rw [size_tail]; omega
  by_cases hend : s.size ≤ p + q
  · rw [unitAt_of_le hend, unitAt_of_le (hsize.2 hend)]
  · have hend' := mt hsize.1 hend
    cases s with
    | bytes b =>
      have hlt : p + q < b.length := Nat.lt_of_not_le hend
      exact (unitAt_bytes (Nat.lt_of_not_le hend')).trans (unitAt_bytes hlt).symm
    | text t =>
      obtain ⟨rest, hrest⟩ := Option.isSome_iff_exists.1 h
      have htail : (Subject.text t).tail p = .text (String.ofList rest) := by
        simp only [tail, hrest]
      rw [htail] at hend' ⊢
      simp only [unitAt, if_neg hend, if_neg hend', String.toList_ofList, dropBytes_add hrest]

end Subject

end Rematch
