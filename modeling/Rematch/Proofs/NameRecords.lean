import Mathlib.Data.Finset.Card
import Mathlib.Data.List.Induction
import Mathlib.Data.List.TakeWhile
import Rematch.NameTable
import Rematch.Proofs.Decoding

/-! # Reading the names that an engine lists

`IsRecord` says which bytes list a number with a name, whatever stands behind the zero byte. A table of such
records is read back record by record (`map_readRecord`), and the name table holds of each name the least
number listed (`get?_ofList`). It is filled by taking in one entry after the other (`ofList_concat`), and
nothing that is read on the way is out of bounds (`decode?_eq`). -/

namespace Rematch

namespace Utf8

/-- What decodes to characters is read as them. -/
theorem lossyFrom_of_decodeFrom {b : Bytes} {pos : Nat} {st : Option Begun} {cs : List Char}
    (h : decodeFrom pos st b = .ok cs) : lossyFrom st b = cs := by
  induction b generalizing pos st cs with
  | nil =>
    cases st with
    | none => cases h; rfl
    | some p => cases h
  | cons x b ih =>
    have whole : ∀ {pos : Nat} {c : Char}, (decodeFrom pos none b).map (c :: ·) = .ok cs →
        c :: lossyFrom none b = cs := by
      intro pos c h
      cases hr : decodeFrom pos none b with
      | error e => rw [hr] at h; cases h
      | ok ds => rw [hr] at h; cases h; rw [ih hr]
    cases st with
    | none =>
      rw [decodeFrom] at h
      rw [lossyFrom]
      cases hl : lead x with
      | whole c => rw [hl] at h; exact whole h
      | begun p => rw [hl] at h; exact ih h
      | illegal => rw [hl] at h; cases h
    | some p =>
      rw [decodeFrom] at h
      rw [lossyFrom]
      cases hn : p.next x with
      | whole c => rw [hn] at h; exact whole h
      | begun q => rw [hn] at h; exact ih h
      | misfit => rw [hn] at h; cases h

theorem lossy_ofString (s : String) : lossy (ofString s) = s := by
  have htext : text (ofString s) = .ok s := text_eq_ok_iff.2 rfl
  rw [text] at htext
  cases hd : decode (ofString s) with
  | error e => rw [hd] at htext; cases htext
  | ok cs =>
    rw [hd] at htext
    rw [lossy, lossyFrom_of_decodeFrom hd]
    exact Except.ok.inj htext

end Utf8

namespace NameTable

/-! ### Records -/

/-- These bytes are a record of a number and a name: the number in two bytes, the name, and a zero byte with
anything behind it unless the name fills the record. -/
inductive IsRecord (size : Nat) : String × Nat → Bytes → Prop
  | filled {name : String} {index : Nat} (hindex : index < 65536) (hzero : 0 ∉ Utf8.ofString name)
      (hsize : 2 + (Utf8.ofString name).length = size) :
      IsRecord size (name, index)
        (UInt8.ofNat (index / 256) :: UInt8.ofNat index :: Utf8.ofString name)
  | padded {name : String} {index : Nat} {padding : Bytes} (hindex : index < 65536)
      (hzero : 0 ∉ Utf8.ofString name)
      (hsize : 2 + (Utf8.ofString name).length + (1 + padding.length) = size) :
      IsRecord size (name, index)
        (UInt8.ofNat (index / 256) :: UInt8.ofNat index :: (Utf8.ofString name ++ 0 :: padding))

theorem readRecord_eq {name : String} {index : Nat} {rest : Bytes} (hindex : index < 65536)
    (hname : rest.takeWhile (· ≠ 0) = Utf8.ofString name) :
    readRecord (UInt8.ofNat (index / 256) :: UInt8.ofNat index :: rest) = (name, index) := by
  have hhigh : (UInt8.ofNat (index / 256)).toNat = index / 256 :=
    UInt8.toNat_ofNat_of_lt' (show index / 256 < 256 by omega)
  have hlow : (UInt8.ofNat index).toNat = index % 256 := UInt8.toNat_ofNat'
  rw [readRecord, hname, Utf8.lossy_ofString, hhigh, hlow, Nat.div_add_mod]

namespace IsRecord
variable {size : Nat} {entry : String × Nat} {r : Bytes}

theorem length_eq (h : IsRecord size entry r) : r.length = size := by
  cases h with
  | filled _ _ hsize => rw [← hsize, List.length_cons, List.length_cons]; omega
  | padded _ _ hsize =>
    rw [← hsize, List.length_cons, List.length_cons, List.length_append, List.length_cons]
    omega

theorem readRecord (h : IsRecord size entry r) : readRecord r = entry := by
  have hname : ∀ {name : String}, 0 ∉ Utf8.ofString name →
      ∀ x ∈ Utf8.ofString name, decide (x ≠ 0) = true := fun hzero x hx =>
    decide_eq_true fun h0 => hzero (h0 ▸ hx)
  cases h with
  | filled hindex hzero _ =>
    exact readRecord_eq hindex (List.takeWhile_eq_self_iff.2 (hname hzero))
  | padded hindex hzero _ =>
    refine readRecord_eq hindex ?_
    rw [List.takeWhile_append_of_pos (hname hzero)]
    simp

end IsRecord

variable {size : Nat}

/-- A record that is counted ends within the table. -/
theorem record_stop_le {b : Bytes} {i : Nat} (h : i ∈ List.range (b.length / size)) :
    size * i + size ≤ b.length := by
  have hle := Nat.mul_le_of_le_div size _ _ (Nat.succ_le_of_lt (List.mem_range.1 h))
  rwa [Nat.succ_mul, Nat.mul_comm] at hle

theorem records_eq_nil {rest : Bytes} (h : rest.length < size) : records size rest = [] := by
  rw [records, Nat.div_eq_of_lt h]; rfl

theorem records_append (hsize : 0 < size) {r : Bytes} (hr : r.length = size) (b : Bytes) :
    records size (r ++ b) = r :: records size b := by
  have hcount : (r ++ b).length / size = b.length / size + 1 := by
    rw [List.length_append, hr, Nat.add_div_left _ hsize]
  rw [records, hcount, List.range_succ_eq_map, List.map_cons, List.map_map, Nat.mul_zero, List.drop_zero,
    ← hr, List.take_left, hr]
  refine congrArg (r :: ·) (List.map_congr_left fun i _ => ?_)
  rw [Function.comp_apply, Nat.mul_succ, Nat.add_comm, ← hr, List.drop_length_add_append]

/-- A table of records is read as what they list; what is too short for one is left out. -/
theorem map_readRecord (hsize : 0 < size) {entries : List (String × Nat)} {rs : List Bytes}
    (h : List.Forall₂ (IsRecord size) entries rs) {rest : Bytes} (hrest : rest.length < size) :
    (records size (rs.flatten ++ rest)).map readRecord = entries := by
  induction h with
  | nil => rw [List.flatten_nil, List.nil_append, records_eq_nil hrest]; rfl
  | cons hr _ ih =>
    rw [List.flatten_cons, List.append_assoc, records_append hsize hr.length_eq, List.map_cons, ih,
      hr.readRecord]

/-! ### The table of a list of entries -/

variable {entries : List (String × Nat)} {name : String} {i : Nat}

theorem decode_records (hsize : 2 < size) {rs : List Bytes}
    (h : List.Forall₂ (IsRecord size) entries rs) {rest : Bytes} (hrest : rest.length < size) :
    decode (rs.flatten ++ rest) size = ofList entries := by
  rw [decode, if_pos hsize, map_readRecord (Nat.zero_lt_of_lt hsize) h hrest]

theorem decode_flatten (hsize : 2 < size) {rs : List Bytes}
    (h : List.Forall₂ (IsRecord size) entries rs) : decode rs.flatten size = ofList entries := by
  have hrest : ([] : Bytes).length < size := Nat.zero_lt_of_lt hsize
  rw [← decode_records hsize h hrest, List.append_nil]

theorem least?_eq_some_iff : least? name entries = some i ↔
    (name, i) ∈ entries ∧ ∀ j, (name, j) ∈ entries → i ≤ j := by
  have hmem : ∀ j, j ∈ (entries.filter (·.1 == name)).map (·.2) ↔ (name, j) ∈ entries := by
    intro j
    simp only [List.mem_map, List.mem_filter, beq_iff_eq, Prod.exists, exists_eq_right]
  rw [least?, List.min?_eq_some_iff, hmem]
  exact and_congr_right fun _ => forall_congr' fun j => by rw [hmem]

theorem least?_eq_none_iff : least? name entries = none ↔ ∀ i, (name, i) ∉ entries := by
  rw [least?, List.min?_eq_none_iff, List.map_eq_nil_iff, List.filter_eq_nil_iff]
  simp only [beq_iff_eq, Prod.forall]
  exact ⟨fun h i hi => h name i hi rfl, fun h a i hi ha => h i (ha ▸ hi)⟩

theorem isSome_least? : (least? name entries).isSome = true ↔ name ∈ entries.map (·.1) := by
  rw [← not_iff_not, Bool.not_eq_true, Option.isSome_eq_false_iff, Option.isNone_iff_eq_none,
    least?_eq_none_iff]
  simp

theorem get?_ofList (name : String) (entries : List (String × Nat)) :
    (ofList entries).get? name = least? name entries := by
  rw [get?, ofList, List.find?_map, Function.comp_def]
  dsimp only
  cases hfind : List.find? (· == name) (entries.map (·.1)).eraseDups with
  | none =>
    have hnot : name ∉ entries.map (·.1) := fun hmem =>
      List.find?_eq_none.1 hfind name (List.mem_eraseDups.2 hmem) (beq_self_eq_true name)
    rw [← isSome_least?, Bool.not_eq_true, Option.isSome_eq_false_iff, Option.isNone_iff_eq_none] at hnot
    rw [hnot]; rfl
  | some a =>
    have ha := List.find?_some hfind
    obtain rfl := beq_iff_eq.1 ha
    have hmem : a ∈ entries.map (·.1) := List.mem_eraseDups.1 (List.mem_of_find?_eq_some hfind)
    obtain ⟨i, hi⟩ := Option.isSome_iff_exists.1 (isSome_least?.2 hmem)
    rw [Option.map_some, Option.map_some, hi]; rfl

theorem eraseDups_concat (l : List String) (a : String) :
    (l ++ [a]).eraseDups = if a ∈ l then l.eraseDups else l.eraseDups ++ [a] := by
  rw [List.eraseDups_append, List.removeAll]
  split
  · next h => simp [h]
  · next h => simp [h]; rfl

theorem nodup_eraseDups (l : List String) : l.eraseDups.Nodup := by
  induction l using List.reverseRecOn with
  | nil => exact List.nodup_nil
  | append_singleton l a ih =>
    rw [eraseDups_concat]
    split
    · exact ih
    · next h =>
      refine List.nodup_append.2 ⟨ih, List.nodup_singleton a, fun x hx y hy => ?_⟩
      rw [List.mem_singleton.1 hy]
      exact fun heq => h (heq ▸ List.mem_eraseDups.1 hx)

/-- No name occurs twice. -/
def Proper (t : NameTable) : Prop := (t.entries.map (·.1)).Nodup

theorem names_ofList (entries : List (String × Nat)) :
    (ofList entries).entries.map (·.1) = (entries.map (·.1)).eraseDups := by
  rw [ofList, List.map_map]
  exact List.map_id _

theorem proper_ofList (entries : List (String × Nat)) : (ofList entries).Proper := by
  rw [Proper, names_ofList]
  exact nodup_eraseDups _

theorem size_ofList (entries : List (String × Nat)) :
    (ofList entries).size = (entries.map (·.1)).toFinset.card := by
  have hset : (entries.map (·.1)).toFinset = (entries.map (·.1)).eraseDups.toFinset := by
    ext a
    rw [List.mem_toFinset, List.mem_toFinset, List.mem_eraseDups]
  rw [hset, List.toFinset_card_of_nodup (nodup_eraseDups _), ← names_ofList, List.length_map]
  rfl

namespace Proper
variable {t u : NameTable}

theorem mem_iff (h : t.Proper) : (name, i) ∈ t.entries ↔ t.get? name = some i := by
  obtain ⟨entries⟩ := t
  induction entries with
  | nil => simp [get?]
  | cons e entries ih =>
    obtain ⟨a, j⟩ := e
    obtain ⟨hnot, hrest⟩ := List.nodup_cons.1 h
    have ih := ih hrest
    rw [get?] at ih ⊢
    rw [List.mem_cons, List.find?_cons]
    by_cases ha : a = name
    · subst ha
      have hmem : (a, i) ∉ entries := fun hmem => hnot (List.mem_map.2 ⟨_, hmem, rfl⟩)
      simp [hmem, eq_comm]
    · have hne : (name, i) ≠ (a, j) := fun he => ha (Prod.mk.inj he).1.symm
      have hbeq : (a == name) = false := beq_eq_false_iff_ne.2 ha
      simpa [hne, hbeq] using ih

/-- Tables that tell the same have the same entries, up to their order. -/
theorem perm (ht : t.Proper) (hu : u.Proper) (h : ∀ name, t.get? name = u.get? name) :
    t.entries.Perm u.entries := by
  refine (List.perm_ext_iff_of_nodup (List.Nodup.of_map _ ht) (List.Nodup.of_map _ hu)).2 ?_
  rintro ⟨name, i⟩
  rw [ht.mem_iff, hu.mem_iff, h]

end Proper

theorem get?_ofList_of_perm {entries' : List (String × Nat)} (h : entries'.Perm entries)
    (name : String) : (ofList entries').get? name = (ofList entries).get? name := by
  refine Option.ext fun i => ?_
  rw [get?_ofList, get?_ofList, least?_eq_some_iff, least?_eq_some_iff, h.mem_iff]
  exact and_congr_right fun _ => forall_congr' fun j => by rw [h.mem_iff]

/-! ### Taking in one entry after the other -/

/-- Takes in an entry: of a name that is there already, the lesser number is kept. -/
def insert (t : NameTable) (e : String × Nat) : NameTable :=
  if (t.get? e.1).isSome then
    ⟨t.entries.map fun d => if d.1 = e.1 then (d.1, min d.2 e.2) else d⟩
  else ⟨t.entries ++ [e]⟩

theorem least?_concat (entries : List (String × Nat)) (e : String × Nat) (name : String) :
    least? name (entries ++ [e]) =
      if e.1 = name then some ((least? name entries).elim e.2 (min · e.2)) else least? name entries := by
  split
  · next he =>
    subst he
    rw [least?_eq_some_iff]
    cases hl : least? e.1 entries with
    | none =>
      have hnot := least?_eq_none_iff.1 hl
      refine ⟨List.mem_append_right _ (List.mem_singleton_self e), fun j hj => ?_⟩
      rcases List.mem_append.1 hj with hj | hj
      · exact absurd hj (hnot j)
      · rw [← List.mem_singleton.1 hj]; exact Nat.le_refl j
    | some i =>
      obtain ⟨hi, hle⟩ := least?_eq_some_iff.1 hl
      rw [Option.elim_some]
      refine ⟨?_, fun j hj => ?_⟩
      · rcases Nat.le_total i e.2 with h | h
        · rw [Nat.min_eq_left h]; exact List.mem_append_left _ hi
        · rw [Nat.min_eq_right h]; exact List.mem_append_right _ (List.mem_singleton_self e)
      · rcases List.mem_append.1 hj with hj | hj
        · exact Nat.le_trans (Nat.min_le_left _ _) (hle j hj)
        · rw [← List.mem_singleton.1 hj]; exact Nat.min_le_right _ _
  · next he =>
    have hne : (e.1 == name) = false := beq_eq_false_iff_ne.2 he
    rw [least?, least?, List.filter_append, List.filter_singleton, hne]
    simp

theorem ofList_concat (entries : List (String × Nat)) (e : String × Nat) :
    ofList (entries ++ [e]) = (ofList entries).insert e := by
  rw [insert, get?_ofList]
  by_cases hmem : e.1 ∈ entries.map (·.1)
  · rw [if_pos (isSome_least?.2 hmem)]
    simp only [ofList, List.map_append, List.map_cons, List.map_nil, eraseDups_concat, if_pos hmem,
      List.map_map]
    refine congrArg NameTable.mk (List.map_congr_left fun name hname => ?_)
    obtain ⟨i, hi⟩ := Option.isSome_iff_exists.1 (isSome_least?.2 (List.mem_eraseDups.1 hname))
    rw [Function.comp_apply, least?_concat, hi]
    by_cases he : e.1 = name
    · rw [if_pos he, if_pos he.symm]; rfl
    · rw [if_neg he, if_neg (Ne.symm he)]
  · have hnone : ¬ (least? e.1 entries).isSome = true := fun h => hmem (isSome_least?.1 h)
    rw [if_neg hnone]
    simp only [ofList, List.map_append, List.map_cons, List.map_nil, eraseDups_concat, if_neg hmem]
    refine congrArg NameTable.mk ?_
    have hlast : (least? e.1 (entries ++ [e])).getD 0 = e.2 := by
      rw [Option.not_isSome_iff_eq_none] at hnone
      rw [least?_concat, if_pos rfl, hnone]; rfl
    rw [hlast]
    refine congrArg (· ++ [e]) (List.map_congr_left fun name hname => ?_)
    have hne : ¬ e.1 = name := fun he => hmem (he ▸ List.mem_eraseDups.1 hname)
    rw [least?_concat, if_neg hne]

theorem foldl_insert (entries : List (String × Nat)) : entries.foldl insert {} = ofList entries := by
  induction entries using List.reverseRecOn with
  | nil => rfl
  | append_singleton entries e ih => rw [List.foldl_concat, ih, ofList_concat]

/-- The number and the name of a record, if all that is read of it is there. -/
def readRecord? (r : Bytes) : Option (String × Nat) := do
  let high ← r[0]?
  let low ← r[1]?
  let name ← r.slice? 2 r.length
  let name ← name.slice? 0 ((name.findIdx? (· = 0)).getD name.length)
  some (Utf8.lossy name, high.toNat <<< 8 ||| low.toNat)

/-- Cuts the table into records, if their size is one and all of them lie in the table. -/
def records? (size : Nat) (table : Bytes) : Option (List Bytes) :=
  if size = 0 then none
  else (List.range (table.length / size)).mapM fun i => table.slice? (size * i) (size * i + size)

/-- Reads the records that an engine lists, if all that is read is there. -/
def decode? (table : Bytes) (size : Nat) : Option NameTable :=
  if 2 < size then do
    let rs ← records? size table
    let entries ← rs.mapM readRecord?
    some (entries.foldl insert {})
  else some {}

theorem mapM_eq_some {α β : Type} {f : α → Option β} {g : α → β} {l : List α}
    (h : ∀ x ∈ l, f x = some (g x)) : l.mapM f = some (l.map g) := by
  induction l with
  | nil => rfl
  | cons x l ih =>
    rw [List.mapM_cons, h x List.mem_cons_self, ih fun y hy => h y (List.mem_cons_of_mem x hy)]
    rfl

theorem takeWhile_eq_slice (b : Bytes) : b.slice? 0 ((b.findIdx? (· = 0)).getD b.length) =
    some (b.takeWhile (· ≠ 0)) := by
  rw [← List.findIdx_eq_getD_findIdx?, Bytes.slice?, if_pos ⟨Nat.zero_le _, List.findIdx_le_length⟩,
    Bytes.slice, List.drop_zero, List.takeWhile_eq_take_findIdx_not]
  simp

theorem readRecord?_eq {r : Bytes} (h : 2 ≤ r.length) : readRecord? r = some (readRecord r) := by
  obtain ⟨high, low, rest, rfl⟩ : ∃ high low rest, r = high :: low :: rest := by
    rcases r with _ | ⟨high, _ | ⟨low, rest⟩⟩
    · exact absurd h (show ¬ 2 ≤ 0 by decide)
    · exact absurd h (show ¬ 2 ≤ 1 by decide)
    · exact ⟨high, low, rest, rfl⟩
  have hhigh : (high :: low :: rest)[0]? = some high := rfl
  have hlow : (high :: low :: rest)[1]? = some low := rfl
  have hname : Bytes.slice? (high :: low :: rest) 2 (high :: low :: rest).length = some rest := by
    rw [Bytes.slice?, if_pos ⟨h, Nat.le_refl _⟩, Bytes.slice, List.take_length]; rfl
  have hword : high.toNat <<< 8 ||| low.toNat = 256 * high.toNat + low.toNat := by
    rw [← Nat.shiftLeft_add_eq_or_of_lt low.toNat_lt, Nat.shiftLeft_eq]
    omega
  simp only [readRecord?, hhigh, hlow, hname, takeWhile_eq_slice, Option.bind_eq_bind, Option.bind_some,
    hword, readRecord]

theorem length_of_mem_records {r b : Bytes} (h : r ∈ records size b) : r.length = size := by
  obtain ⟨i, hi, rfl⟩ := List.mem_map.1 h
  have := record_stop_le hi
  rw [List.length_take, List.length_drop]
  omega

theorem records?_eq (hsize : 0 < size) (b : Bytes) : records? size b = some (records size b) := by
  rw [records?, if_neg (Nat.ne_of_gt hsize), records]
  refine mapM_eq_some fun i hi => ?_
  rw [Bytes.slice?, if_pos ⟨Nat.le_add_right _ _, record_stop_le hi⟩, Bytes.slice, List.drop_take,
    Nat.add_sub_cancel_left]

/-- Nothing that is read of a table is out of bounds, whatever its bytes and the size of its records. -/
theorem decode?_eq (b : Bytes) (size : Nat) : decode? b size = some (decode b size) := by
  rw [decode?, decode]
  split
  · next hsize =>
    have hread : (records size b).mapM readRecord? = some ((records size b).map readRecord) :=
      mapM_eq_some fun r hr => readRecord?_eq (by rw [length_of_mem_records hr]; omega)
    rw [records?_eq (by omega) b, ← foldl_insert]
    simp only [Option.bind_eq_bind, Option.bind_some, hread]
  · rfl

/-- **Reading names inverts listing them.** Let records of more than two bytes list entries, with anything
behind the zero bytes and with a rest that is too short for a record. The table that is read holds of each
name the least number listed for it, and nothing of others; it holds each name once, and as many as are
listed; without the rest, and from records of the same entries in any order, it is the same. Whatever the
bytes and the size of the records are, nothing that is read is out of bounds. -/
theorem decode_tells_entries :
    (∀ (size : Nat) (entries : List (String × Nat)) (rs : List Bytes) (rest : Bytes), 2 < size →
      List.Forall₂ (IsRecord size) entries rs → rest.length < size →
      let t := decode (rs.flatten ++ rest) size
      (∀ name i, t.get? name = some i ↔
        (name, i) ∈ entries ∧ ∀ j, (name, j) ∈ entries → i ≤ j) ∧
      (∀ name, t.get? name = none ↔ ∀ i, (name, i) ∉ entries) ∧
      t.size = (entries.map (·.1)).toFinset.card ∧
      (t.entries.map (·.1)).Nodup ∧ (∀ name i, (name, i) ∈ t.entries ↔ t.get? name = some i) ∧
      t = decode rs.flatten size ∧
      ∀ (entries' : List (String × Nat)) (rs' : List Bytes) (rest' : Bytes), entries'.Perm entries →
        List.Forall₂ (IsRecord size) entries' rs' → rest'.length < size →
        (decode (rs'.flatten ++ rest') size).entries.Perm t.entries ∧
        ∀ name, (decode (rs'.flatten ++ rest') size).get? name = t.get? name) ∧
    ∀ b size, decode? b size = some (decode b size) := by
  refine ⟨fun size entries rs rest hsize hrs hrest => ?_, decode?_eq⟩
  intro t
  have ht : t = ofList entries := decode_records hsize hrs hrest
  have hproper : t.Proper := ht ▸ proper_ofList entries
  refine ⟨fun name i => ?_, fun name => ?_, ?_, hproper, fun name i => hproper.mem_iff, ?_,
    fun entries' rs' rest' hperm hrs' hrest' => ?_⟩
  · rw [ht, get?_ofList, least?_eq_some_iff]
  · rw [ht, get?_ofList, least?_eq_none_iff]
  · rw [ht, size_ofList]
  · rw [decode_flatten hsize hrs, ht]
  · rw [decode_records hsize hrs' hrest', ht]
    have hget := get?_ofList_of_perm hperm
    exact ⟨(proper_ofList entries').perm (proper_ofList entries) hget, hget⟩

/-- A name that fills its record, listed twice, and one in front of a zero byte with something behind it. -/
theorem decode_tells_entries_listed :
    let entries := [("jour", 2), ("année", 3), ("année", 1)]
    let rs : List Bytes :=
      [[0, 2, 0x6a, 0x6f, 0x75, 0x72, 0, 0xff], [0, 3, 0x61, 0x6e, 0x6e, 0xc3, 0xa9, 0x65],
        [0, 1, 0x61, 0x6e, 0x6e, 0xc3, 0xa9, 0x65]]
    let t := decode (rs.flatten ++ [0, 4, 0x78]) 8
    List.Forall₂ (IsRecord 8) entries rs ∧
    t.get? "jour" = some 2 ∧ t.get? "année" = some 1 ∧ t.get? "mois" = none ∧ t.size = 2 ∧
    t.entries.Perm [("année", 1), ("jour", 2)] := by
  intro entries rs t
  have hrs : List.Forall₂ (IsRecord 8) entries rs :=
    .cons (.padded (by decide) (by decide) (by decide))
      (.cons (.filled (by decide) (by decide) (by decide))
        (.cons (.filled (by decide) (by decide) (by decide)) .nil))
  obtain ⟨hsome, hnone, hsize, -⟩ := decode_tells_entries.1 8 entries rs [0, 4, 0x78] (by decide) hrs
    (by decide)
  refine ⟨hrs, (hsome "jour" 2).2 ?_, (hsome "année" 1).2 ?_, (hnone "mois").2 ?_, hsize.trans ?_,
    by decide +kernel⟩
  · simp [entries]
  · simp [entries]
  · simp [entries]
  · decide

end NameTable

end Rematch
