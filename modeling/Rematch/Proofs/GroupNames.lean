import Rematch.Proofs.NameRecords
import Rematch.Proofs.RegexEngine

/-! # The names of groups in order

The list of the names of groups is the table of names read the other way round. It is filled with the
entries of the table as they come: each place keeps the first name that is put there (`fill_eq`). In
which order they come makes no difference if no two names have one number (`Apart`), and an engine that
lists no number with two names leaves such a table (`Numbers.apart_ofList`), even though the table
forgets all but the least number of each name. -/

namespace Rematch

namespace NameTable
variable {groups i : Nat} {name : String}
variable {entries : List (String × Nat)} {t : NameTable}

/-! ### Filling the list -/

/-- Puts a name at its number, unless there is no such place or it is taken. -/
def put (names : List (Option String)) (e : String × Nat) : List (Option String) :=
  match names[e.2]? with
  | some none => names.set e.2 (some e.1)
  | _ => names

/-- The names of the groups from 0 to `groups`, filled in with entries as they come. -/
def fill (groups : Nat) (entries : List (String × Nat)) : List (Option String) :=
  entries.foldl put (List.replicate (groups + 1) none)

theorem getElem?_put (names : List (Option String)) (e : String × Nat) (i : Nat) :
    (put names e)[i]? = names[i]?.map (·.or (if e.2 = i then some e.1 else none)) := by
  by_cases hi : e.2 = i
  · subst hi
    rw [put, if_pos rfl]
    split
    · next h =>
      obtain ⟨hlt, -⟩ := List.getElem?_eq_some_iff.1 h
      rw [h, List.getElem?_set_self hlt]; rfl
    · next h =>
      cases hn : names[e.2]? with
      | none => rfl
      | some n =>
        cases n with
        | none => exact absurd hn h
        | some n => rfl
  · rw [put, if_neg hi]
    have hsame : (names.set e.2 (some e.1))[i]? = names[i]? := List.getElem?_set_ne hi
    split <;> simp [hsame]

/-- A place keeps the name that it has; else it gets that of the first entry with its number. -/
theorem getElem?_foldl_put (names : List (Option String)) (entries : List (String × Nat)) (i : Nat) :
    (entries.foldl put names)[i]? =
      names[i]?.map (·.or ((entries.find? (·.2 == i)).map (·.1))) := by
  induction entries generalizing names with
  | nil => simp
  | cons e entries ih =>
    rw [List.foldl_cons, ih, getElem?_put, Option.map_map, List.find?_cons]
    refine congrArg (fun f => names[i]?.map f) (funext fun n => ?_)
    rw [Function.comp_apply, Option.or_assoc]
    by_cases hi : e.2 = i
    · simp [hi]
    · simp [hi, beq_eq_false_iff_ne.2 hi]

theorem length_captureNames (t : NameTable) (groups : Nat) :
    (t.captureNames groups).length = groups + 1 := by
  rw [captureNames, List.length_map, List.length_range]

theorem getElem?_captureNames (t : NameTable) (groups i : Nat) :
    (t.captureNames groups)[i]? = if i ≤ groups then some (t.nameOf? i) else none := by
  rw [captureNames, List.getElem?_map]
  split
  · next hi => rw [List.getElem?_range (Nat.lt_succ_of_le hi)]; rfl
  · next hi => rw [List.getElem?_eq_none (by rw [List.length_range]; omega)]; rfl

theorem fill_eq (groups : Nat) (t : NameTable) : fill groups t.entries = t.captureNames groups := by
  refine List.ext_getElem? fun i => ?_
  rw [fill, getElem?_foldl_put, getElem?_captureNames, List.getElem?_replicate]
  by_cases hi : i ≤ groups
  · rw [if_pos (Nat.lt_succ_of_le hi), if_pos hi, Option.map_some, Option.none_or]; rfl
  · rw [if_neg (by omega), if_neg hi]; rfl

/-! ### Tables in which every number has one name -/

/-- No two names have one number. -/
def Apart (t : NameTable) : Prop := ∀ e ∈ t.entries, ∀ d ∈ t.entries, e.2 = d.2 → e.1 = d.1

theorem Apart.nameOf?_eq_some_iff (h : t.Apart) : t.nameOf? i = some name ↔ (name, i) ∈ t.entries := by
  rw [nameOf?, Option.map_eq_some_iff]
  constructor
  · rintro ⟨⟨n, j⟩, hfind, rfl⟩
    have hj := List.find?_some hfind
    obtain rfl := beq_iff_eq.1 hj
    exact List.mem_of_find?_eq_some hfind
  · intro hmem
    have hsome : (t.entries.find? (·.2 == i)).isSome = true :=
      List.find?_isSome.2 ⟨_, hmem, beq_self_eq_true i⟩
    obtain ⟨e, hfind⟩ := Option.isSome_iff_exists.1 hsome
    have he := List.find?_some hfind
    exact ⟨e, hfind, h e (List.mem_of_find?_eq_some hfind) _ hmem (beq_iff_eq.1 he)⟩

theorem Apart.perm (h : t.Apart) (hp : entries.Perm t.entries) : Apart ⟨entries⟩ :=
  fun e he d hd => h e (hp.mem_iff.1 he) d (hp.mem_iff.1 hd)

/-- The order in which the entries come makes no difference. -/
theorem Apart.fill_eq_of_perm (h : t.Apart) (hp : entries.Perm t.entries) (groups : Nat) :
    fill groups entries = t.captureNames groups := by
  have hsame : ∀ i, nameOf? ⟨entries⟩ i = t.nameOf? i := fun i => Option.ext fun name => by
    rw [(h.perm hp).nameOf?_eq_some_iff, h.nameOf?_eq_some_iff, hp.mem_iff]
  rw [fill_eq groups ⟨entries⟩, captureNames, captureNames, List.map_congr_left fun i _ => hsame i]

/-- Each name of the table is shown once. -/
theorem Apart.shown_perm (h : t.Apart) (ht : t.Proper) (hle : ∀ e ∈ t.entries, e.2 ≤ groups) :
    ((t.captureNames groups).filterMap id).Perm (t.entries.map (·.1)) := by
  have hshown : (t.captureNames groups).filterMap id = (List.range (groups + 1)).filterMap t.nameOf? := by
    rw [captureNames, List.filterMap_map]; rfl
  have hnodup : ((List.range (groups + 1)).filterMap t.nameOf?).Nodup := by
    refine List.nodup_range.filterMap fun i j name hi hj => ?_
    have hi := ht.mem_iff.1 (h.nameOf?_eq_some_iff.1 hi)
    have hj := ht.mem_iff.1 (h.nameOf?_eq_some_iff.1 hj)
    exact Option.some.inj (hi.symm.trans hj)
  rw [hshown]
  refine (List.perm_ext_iff_of_nodup hnodup ht).2 fun name => ?_
  rw [List.mem_filterMap, List.mem_map]
  constructor
  · rintro ⟨i, -, hi⟩
    exact ⟨_, h.nameOf?_eq_some_iff.1 hi, rfl⟩
  · rintro ⟨⟨name, i⟩, hmem, rfl⟩
    exact ⟨i, List.mem_range.2 (Nat.lt_succ_of_le (hle _ hmem)), h.nameOf?_eq_some_iff.2 hmem⟩

/-! ### What an engine lists -/

/-- The entries that an engine lists, in its order. -/
def listed (table : Bytes) (size : Nat) : List (String × Nat) :=
  if 2 < size then (records size table).map readRecord else []

theorem decode_eq (table : Bytes) (size : Nat) : decode table size = ofList (listed table size) := by
  rw [decode, listed]
  split <;> rfl

/-- Every number is that of a group, and none is listed with two names. A name may have many. -/
structure Numbers (groups : Nat) (entries : List (String × Nat)) : Prop where
  pos : ∀ e ∈ entries, 1 ≤ e.2
  le : ∀ e ∈ entries, e.2 ≤ groups
  name_eq : ∀ e ∈ entries, ∀ d ∈ entries, e.2 = d.2 → e.1 = d.1

instance (groups : Nat) (entries : List (String × Nat)) : Decidable (Numbers groups entries) :=
  decidable_of_iff ((∀ e ∈ entries, 1 ≤ e.2) ∧ (∀ e ∈ entries, e.2 ≤ groups) ∧
      ∀ e ∈ entries, ∀ d ∈ entries, e.2 = d.2 → e.1 = d.1)
    ⟨fun ⟨hpos, hle, hname⟩ => ⟨hpos, hle, hname⟩, fun h => ⟨h.pos, h.le, h.name_eq⟩⟩

/-- The table has no entry that is not listed. -/
theorem mem_of_mem_ofList {e : String × Nat} (h : e ∈ (ofList entries).entries) : e ∈ entries := by
  have hget := (proper_ofList entries).mem_iff.1 h
  rw [get?_ofList] at hget
  exact (least?_eq_some_iff.1 hget).1

theorem Numbers.apart_ofList (h : Numbers groups entries) : (ofList entries).Apart :=
  fun e he d hd => h.name_eq e (mem_of_mem_ofList he) d (mem_of_mem_ofList hd)

end NameTable

namespace Compiled
open NameTable
variable {κ : Type} [Engine κ]

/-- The names that the engine lists for a pattern, with their numbers. -/
def listed (p : Compiled κ) : List (String × Nat) :=
  NameTable.listed (Engine.nameRecords p.code).1 (Engine.nameRecords p.code).2

theorem names_eq (p : Compiled κ) : p.names = ofList p.listed := decode_eq _ _

/-- **The names of groups invert the table of names.** Let an engine list only numbers of groups, and no
number with two names. The list of names has a place for each group and one for the whole match, which
has no name; a place has a name just if the table has the number of the place for that name, which is the
least that is listed for it. The entries of the table may come in any order; every name is shown once, and
nothing else is shown. -/
theorem captureNames_invert_names (p : Compiled κ) (h : Numbers p.groups p.listed) :
    p.captureNames.length = p.groups + 1 ∧
    p.captureNames[0]? = some none ∧
    (∀ i name, p.captureNames[i]? = some (some name) ↔ p.names.get? name = some i) ∧
    (∀ i name, p.captureNames[i]? = some (some name) ↔
      (name, i) ∈ p.listed ∧ ∀ j, (name, j) ∈ p.listed → i ≤ j) ∧
    (∀ entries, entries.Perm p.names.entries → fill p.groups entries = p.captureNames) ∧
    (∀ name, p.captureNames.count (some name) = if (p.names.get? name).isSome then 1 else 0) ∧
    p.captureNames.countP Option.isSome = p.names.size := by
  have hproper : p.names.Proper := p.names_eq ▸ proper_ofList p.listed
  have hapart : p.names.Apart := p.names_eq ▸ h.apart_ofList
  have hlisted : ∀ e ∈ p.names.entries, e ∈ p.listed := by
    rw [names_eq]; exact fun e => mem_of_mem_ofList
  have hshows : ∀ i name, p.captureNames[i]? = some (some name) ↔ p.names.get? name = some i := by
    intro i name
    rw [captureNames, getElem?_captureNames, ← hproper.mem_iff]
    constructor
    · intro hi
      split at hi
      · exact hapart.nameOf?_eq_some_iff.1 (Option.some.inj hi)
      · cases hi
    · intro hmem
      rw [if_pos (h.le _ (hlisted _ hmem)), hapart.nameOf?_eq_some_iff.2 hmem]
  have hperm := hapart.shown_perm hproper fun e he => h.le e (hlisted e he)
  refine ⟨length_captureNames _ _, ?_, hshows, fun i name => ?_, fun entries hp => ?_, fun name => ?_, ?_⟩
  · rw [captureNames, getElem?_captureNames, if_pos (Nat.zero_le _)]
    refine congrArg some (Option.eq_none_iff_forall_ne_some.2 fun name hname => ?_)
    have hmem := hlisted _ (hapart.nameOf?_eq_some_iff.1 hname)
    exact absurd (h.pos _ hmem) (Nat.not_succ_le_zero 0)
  · rw [hshows, names_eq, get?_ofList, least?_eq_some_iff]
  · exact hapart.fill_eq_of_perm hp p.groups
  · have hcount : p.captureNames.count (some name) = (p.captureNames.filterMap id).count name := by
      rw [List.count_filterMap]; rfl
    have hmem : name ∈ p.names.entries.map (·.1) ↔ (p.names.get? name).isSome = true := by
      simp only [List.mem_map, Prod.exists, exists_eq_right, hproper.mem_iff, Option.isSome_iff_exists,
        exists_and_right]
    rw [hcount, captureNames, hperm.count_eq, hproper.count, if_congr hmem rfl rfl]
  · have hcount : p.captureNames.countP Option.isSome = (p.captureNames.filterMap id).length := by
      rw [List.length_filterMap_eq_countP]; rfl
    rw [hcount, captureNames, hperm.length_eq, List.length_map]; rfl

/-- One name for two groups that cannot both take part, and another behind a group without one. -/
def dated : Compiled Regex.Program :=
  (Compiled.plain? "(?J)(?<day>a)|(?<day>b)(c)(?<year>d)" 0).get (by decide +kernel)

theorem listed_dated : dated.listed = [("day", 1), ("day", 2), ("year", 4)] := by
  -- the names are written in the order in which they are listed
  have hsorted : dated.code.entries = dated.code.names :=
    List.mergeSort_of_pairwise (by decide +kernel)
  have hrecords : Engine.nameRecords dated.code =
      ([0, 1, 0x64, 0x61, 0x79, 0, 0, 0, 2, 0x64, 0x61, 0x79, 0, 0,
        0, 4, 0x79, 0x65, 0x61, 0x72, 0], 7) := by
    show Regex.Program.nameRecords dated.code = _
    rw [Regex.Program.nameRecords, hsorted]
    decide +kernel
  rw [listed, hrecords]
  decide +kernel

/-- The name of two groups is shown at the first, whichever name comes first. -/
theorem captureNames_invert_names_dated :
    Numbers dated.groups dated.listed ∧
    dated.captureNames = [none, some "day", none, none, some "year"] ∧
    dated.names.get? "day" = some 1 ∧ (none : Option String) ∈ dated.captureNames ∧
    fill dated.groups [("year", 4), ("day", 1)] = dated.captureNames ∧
    dated.captureNames.count (some "day") = 1 ∧
    dated.captureNames.countP Option.isSome = dated.names.size := by
  have hnumbers : Numbers dated.groups dated.listed := by
    rw [listed_dated]; decide +kernel
  have hnames : dated.names = ⟨[("day", 1), ("year", 4)]⟩ := by
    rw [names_eq, listed_dated]; decide +kernel
  have hshown : dated.captureNames = [none, some "day", none, none, some "year"] := by
    rw [captureNames, hnames]; decide +kernel
  obtain ⟨-, hwhole, hget, -, hfill, hcount, hsize⟩ := captureNames_invert_names dated hnumbers
  have hday : dated.names.get? "day" = some 1 := (hget 1 "day").1 (by rw [hshown]; rfl)
  refine ⟨hnumbers, hshown, hday, List.mem_of_getElem? hwhole, hfill _ ?_, ?_, hsize⟩
  · rw [hnames]; decide
  · rw [hcount, hday]; rfl

end Compiled

end Rematch
