import Mathlib.Tactic.SplitIfs
import Rematch.Regex.Machine

/-! # What a machine carries along

All nodes that a machine has still to match are parts of the expression, or repetitions of pieces of it,
and the offsets that it comes to or keeps are had from others in few ways. `Holds` says of a task and a
state that no node in them has a part of some kind and that all offsets in them have some property. It is
kept by every step, and so by a whole attempt (`attempt_holds`). -/

namespace Rematch.Regex

namespace Node
variable {bad : Node → Bool} {a b c n body : Node}

/-- No part of the node is of the kind. -/
def Free (bad : Node → Bool) (n : Node) : Prop := n.anywhere bad = false

instance : Decidable (n.Free bad) := inferInstanceAs (Decidable (_ = _))

theorem Free.not_bad (h : n.Free bad) : bad n = false := by
  cases n <;> simp_all [Free, anywhere]

@[simp] theorem free_seq : (seq a b).Free bad ↔ bad (seq a b) = false ∧ a.Free bad ∧ b.Free bad := by
  show (bad (seq a b) || a.anywhere bad || b.anywhere bad) = false ↔ _
  simp only [Free, Bool.or_eq_false_iff, and_assoc]

@[simp] theorem free_alt : (alt a b).Free bad ↔ bad (alt a b) = false ∧ a.Free bad ∧ b.Free bad := by
  show (bad (alt a b) || a.anywhere bad || b.anywhere bad) = false ↔ _
  simp only [Free, Bool.or_eq_false_iff, and_assoc]

@[simp] theorem free_group {g : Grouping} :
    (group g body).Free bad ↔ bad (group g body) = false ∧ body.Free bad :=
  Bool.or_eq_false_iff

@[simp] theorem free_look {d : Direction} {offset : Nat} :
    (look d offset body).Free bad ↔ bad (look d offset body) = false ∧ body.Free bad :=
  Bool.or_eq_false_iff

@[simp] theorem free_behind {q : Reach} :
    (behind q body).Free bad ↔ bad (behind q body) = false ∧ body.Free bad :=
  Bool.or_eq_false_iff

@[simp] theorem free_repeated {q : Repeat} :
    (repeated q body).Free bad ↔ bad (repeated q body) = false ∧ body.Free bad :=
  Bool.or_eq_false_iff

@[simp] theorem free_choice {q : Condition} {two : Bool} : (choice q two a b).Free bad ↔
    bad (choice q two a b) = false ∧ a.Free bad ∧ b.Free bad := by
  show (bad (choice q two a b) || a.anywhere bad || b.anywhere bad) = false ↔ _
  simp only [Free, Bool.or_eq_false_iff, and_assoc]

@[simp] theorem free_lookChoice {d : Direction} {offset : Nat} {two : Bool} :
    (lookChoice d offset two a b c).Free bad ↔ bad (lookChoice d offset two a b c) = false ∧
      a.Free bad ∧ b.Free bad ∧ c.Free bad := by
  show (bad (lookChoice d offset two a b c) || a.anywhere bad || b.anywhere bad ||
    c.anywhere bad) = false ↔ _
  simp only [Free, Bool.or_eq_false_iff, and_assoc]

/-- There is no part of no kind. -/
theorem free_false (n : Node) : n.Free fun _ => false := by
  induction n <;> simp_all [Free, anywhere]

/-- A group of an expression is a part of it. -/
theorem Free.group? {g : Nat} (h : n.Free bad) (hg : n.group? g = some body) : body.Free bad := by
  induction n with
  | group kind inner ih =>
    rw [free_group] at h
    rw [Node.group?] at hg
    split at hg
    · cases hg; exact h.2
    · exact ih h.2 hg
  | seq a b iha ihb | alt a b iha ihb | choice _ _ a b iha ihb =>
    simp only [free_seq, free_alt, free_choice] at h
    rw [Node.group?, Option.or_eq_some_iff] at hg
    rcases hg with hg | ⟨-, hg⟩
    · exact iha h.2.1 hg
    · exact ihb h.2.2 hg
  | look _ _ inner ih | behind _ inner ih | repeated _ inner ih =>
    simp only [free_look, free_behind, free_repeated] at h
    exact ih h.2 hg
  | lookChoice _ _ _ a b c iha ihb ihc =>
    rw [free_lookChoice] at h
    rw [Node.group?, Option.or_eq_some_iff, Option.or_eq_some_iff] at hg
    rcases hg with (hg | ⟨-, hg⟩) | ⟨-, hg⟩
    · exact iha h.2.1 hg
    · exact ihb h.2.2.1 hg
    · exact ihc h.2.2.2 hg
  | _ => cases hg

end Node

/-- What properties must put up with to be carried along: `P` is one of all offsets that the machine comes
to or keeps, and `S` one of the places where matches are reported to start. -/
structure Carried (m : Machine) (bad : Node → Bool) (P S : Nat → Prop) : Prop where
  repeated : ∀ q n, bad (.repeated q n) = false
  bite : ∀ p pos q, bad (.piece p) = false → P pos → (m.bite p pos).next = some q → P q
  prev : ∀ pos, P pos → P (m.subject.prev pos)
  same : ∀ (s : Span) pos q, P s.start → P s.stop → P pos →
    (m.sameAt s.start s.stop pos (s.width + 1)).next = some q → P q
  equal : ∀ (s : Span) pos q, P s.start → P s.stop → P pos →
    (m.equalAt s.start s.stop pos (s.width + 1)).next = some q → P q
  keep : bad .keep = false → ∀ pos, P pos → S pos

/-- What is carried along of the nodes alone. -/
theorem Carried.of_nodes {m : Machine} {bad : Node → Bool} {S : Nat → Prop}
    (hrepeated : ∀ q n, bad (.repeated q n) = false) (hkeep : bad .keep = false → ∀ pos, S pos) :
    Carried m bad (fun _ => True) S where
  repeated := hrepeated
  bite _ _ _ _ _ _ := trivial
  prev _ _ := trivial
  same _ _ _ _ _ _ _ := trivial
  equal _ _ _ _ _ _ _ := trivial
  keep hk pos _ := hkeep hk pos

section
variable (bad : Node → Bool) (P S : Nat → Prop)

/-- Both ends of all spans in the buffer have the property. -/
def HoldsIn (slots : Slots) : Prop := ∀ s, some s ∈ slots → P s.start ∧ P s.stop

structure Regs.Holds (r : Regs) : Prop where
  pos : P r.pos
  start : S r.start
  slots : HoldsIn P r.slots

def Frame.Holds : Frame → Prop
  | .node n => n.Free bad
  | .again _ body _ => body.Free bad
  | .close _ start => P start
  | .looked _ origin => P origin
  | .back _ slots _ => HoldsIn P slots
  | .cut _ | .arrive _ | .refuse _ => True

def FramesHold (k : List Frame) : Prop := ∀ f ∈ k, f.Holds bad P

def Choice.Holds : Choice → Prop
  | .resume r k | .otherwise r k => r.Holds P S ∧ FramesHold bad P k
  | .places r stops k => r.Holds P S ∧ (∀ pos ∈ stops, P pos) ∧ FramesHold bad P k
  | .verb _ pos _ => P pos
  | .caller _ => True

def Verdict.Holds : Verdict → Prop
  | .matched r => r.Holds P S
  | .verb _ pos => P pos
  | .noMatch | .ended | .limit | .callLoop => True

def Task.Holds : Task → Prop
  | .go r k => r.Holds P S ∧ FramesHold bad P k
  | .unwind _ pos _ => P pos
  | .stop v => v.Holds P S
  | .fail => True

def State.Holds (st : State) : Prop := ∀ c ∈ st.choices, c.Holds bad P S

def Holds (x : Task × State) : Prop := x.1.Holds bad P S ∧ x.2.Holds bad P S

end

section
variable {bad : Node → Bool} {P S : Nat → Prop}

theorem HoldsIn.set {slots : Slots} (h : HoldsIn P slots) {start pos : Nat} (hstart : P start)
    (hpos : P pos) (g : Nat) : HoldsIn P (slots.set! g (some ⟨start, pos⟩)) := by
  intro s hs
  rcases Array.mem_or_eq_of_mem_setIfInBounds hs with hs | hs
  · exact h s hs
  · cases hs; exact ⟨hstart, hpos⟩

theorem HoldsIn.getElem? {slots : Slots} (h : HoldsIn P slots) {g : Nat} {s : Span}
    (hs : slots[g]?.join = some s) : P s.start ∧ P s.stop :=
  h s (Array.mem_of_getElem? (Option.join_eq_some_iff.1 hs))

theorem FramesHold.cons {f : Frame} {k : List Frame} (hf : f.Holds bad P)
    (hk : FramesHold bad P k) : FramesHold bad P (f :: k) :=
  List.forall_mem_cons.2 ⟨hf, hk⟩

end

namespace State
variable {bad : Node → Bool} {P S : Nat → Prop} {st : State}

theorem Holds.keep {c : Choice} (h : st.Holds bad P S) (hc : c.Holds bad P S) :
    (Machine.keep c st).Holds bad P S := by
  intro d hd
  rcases Array.mem_push.1 hd with hd | rfl
  · exact h d hd
  · exact hc

theorem Holds.cutTo (h : st.Holds bad P S) (height : Nat) : (Machine.cutTo height st).Holds bad P S := by
  intro c hc
  have hmem : c ∈ (st.choices.shrink height).toList := Array.mem_toList_iff.2 hc
  rw [Array.toList_shrink] at hmem
  exact h c (Array.mem_toList_iff.1 (List.mem_of_mem_take hmem))

theorem Holds.pop (h : st.Holds bad P S) : State.Holds bad P S { st with choices := st.choices.pop } := by
  intro c hc
  rw [← Array.mem_toList_iff, Array.toList_pop] at hc
  exact h c (Array.mem_toList_iff.1 (List.dropLast_subset _ hc))

theorem Holds.back? {c : Choice} (h : st.Holds bad P S) (hc : st.choices.back? = some c) :
    c.Holds bad P S :=
  h c (Array.mem_of_back? hc)

end State

theorem Task.isStop_or (t : Task) : (∃ v, t = .stop v) ∨ ∀ v, t ≠ .stop v := by
  cases t with
  | stop v => exact .inl ⟨v, rfl⟩
  | _ => exact .inr nofun

namespace Machine
variable {bad : Node → Bool} {P S : Nat → Prop} {m : Machine} {r : Regs} {st : State} {k : List Frame}

theorem steps_succ {t : Task} (ht : ∀ v, t ≠ .stop v) (fuel : Nat) : m.steps t st (fuel + 1) =
    if m.limit < st.count then (.limit, st)
    else m.steps (m.step t st).1 (m.step t st).2 fuel := by
  cases t with
  | stop v => exact absurd rfl (ht v)
  | _ => rfl

theorem biteAgain_next (p : Piece) (pos : Nat) : (m.biteAgain p pos).next = (m.bite p pos).next := by
  cases p with
  | atom a => rfl
  | newline =>
    show (if _ then _ else _ : Bite).next = _
    split <;> rfl

theorem failAt_holds (hst : st.Holds bad P S) (seen : Nat) : Holds bad P S (failAt seen st) :=
  ⟨trivial, hst⟩

theorem ite_holds {p : Prop} [Decidable p] {x y : Task × State} (hx : Holds bad P S x)
    (hy : Holds bad P S y) : Holds bad P S (if p then x else y) := by
  split
  · exact hx
  · exact hy

theorem orEnd_holds {short : Bool} {next : State → Task × State} (hst : st.Holds bad P S)
    (hnext : ∀ st : State, st.Holds bad P S → Holds bad P S (next st)) :
    Holds bad P S (m.orEnd short st next) := by
  unfold orEnd
  split
  · dsimp only
    split
    · exact ⟨trivial, hst⟩
    · exact hnext _ hst
  · exact hnext st hst

/-! ### Offsets that are had from others -/

section
variable (hc : Carried m bad P S)
include hc

theorem biteTimes_holds {p : Piece} (hp : bad (.piece p) = false) {pos q times : Nat} (hpos : P pos)
    (hq : (m.biteTimes p pos times).next = some q) : P q := by
  induction times generalizing pos with
  | zero => cases hq; exact hpos
  | succ times ih =>
    rw [biteTimes] at hq
    dsimp only at hq
    split at hq
    · next hnone => rw [hnone] at hq; cases hq
    · next next hnext => exact ih (hc.bite p pos next hp hpos (biteAgain_next p pos ▸ hnext)) hq

theorem biteMany_holds {p : Piece} (hp : bad (.piece p) = false) {pos : Nat} {stops : List Nat}
    (hpos : P pos) (hstops : ∀ q ∈ stops, P q) (left : Option Nat) (inNewline : Bool) (fuel : Nat) :
    ∀ q ∈ (m.biteMany p pos stops left inNewline fuel).1, P q := by
  induction fuel generalizing pos stops left inNewline with
  | zero => exact hstops
  | succ fuel ih =>
    rw [biteMany]
    split
    · exact hstops
    · dsimp only
      split
      · exact hstops
      · next next hnext =>
        have hnext : P next := hc.bite p pos next hp hpos (biteAgain_next p pos ▸ hnext)
        have hmore : ∀ q ∈ next :: stops, P q := List.forall_mem_cons.2 ⟨hnext, hstops⟩
        split
        · exact hmore
        · exact ih hnext hmore _ _

theorem before_holds {pos : Nat} {found : List Nat} {count : Nat} (hpos : P pos)
    (hfound : ∀ q ∈ found, P q) : ∀ q ∈ m.before pos found count, P q := by
  induction count generalizing pos found with
  | zero => exact hfound
  | succ count ih =>
    rw [before]
    split
    · exact hfound
    · have hprev := hc.prev pos hpos
      exact ih hprev (List.forall_mem_cons.2 ⟨hprev, hfound⟩)

end

theorem referent?_holds {groups : List Nat} {s : Span} (hr : r.Holds P S)
    (hs : referent? groups r = some s) : P s.start ∧ P s.stop := by
  obtain ⟨g, -, hg⟩ := List.exists_of_findSome?_eq_some hs
  exact hr.slots.getElem? hg

theorem headD_holds {stops : List Nat} {pos : Nat} (hpos : P pos) (hstops : ∀ q ∈ stops, P q) :
    P (stops.headD pos) := by
  cases stops with
  | nil => exact hpos
  | cons q rest => exact hstops q List.mem_cons_self

/-! ### Steps -/

variable (hc : Carried m bad P S) (hr : r.Holds P S) (hk : FramesHold bad P k) (hst : st.Holds bad P S)
include hr hk hst

theorem goAt_holds {pos : Nat} (hpos : P pos) : Holds bad P S (.go { r with pos } k, st) :=
  ⟨⟨⟨hpos, hr.start, hr.slots⟩, hk⟩, hst⟩

theorem fromPlaces_holds {stops : List Nat} (hstops : ∀ q ∈ stops, P q) :
    Holds bad P S (fromPlaces r stops st k) := by
  match stops, hstops with
  | [], _ => exact failAt_holds hst _
  | [pos], hstops => exact goAt_holds hr hk hst (hstops pos List.mem_cons_self)
  | pos :: p :: rest, hstops =>
    obtain ⟨hpos, hrest⟩ := List.forall_mem_cons.1 hstops
    have hplaces : Choice.Holds bad P S (.places r (p :: rest) k) := ⟨hr, hrest, hk⟩
    exact goAt_holds hr hk (hst.keep hplaces) hpos

theorem afterBite_holds {b : Bite} (hb : ∀ q, b.next = some q → P q) :
    Holds bad P S (m.afterBite b r st k) := by
  refine orEnd_holds hst fun st hst => ?_
  split
  · next q hq => exact goAt_holds hr hk hst (hb q hq)
  · exact failAt_holds hst _

theorem repeatNode_holds (body : Node) (q : Repeat) (hb : body.Free bad) :
    Holds bad P S (repeatNode body q r st k) := by
  unfold repeatNode
  have hnext : FramesHold bad P (.node body ::
      .again ⟨q.min - 1, q.max.map (· - 1), q.greed⟩ body r.pos :: k) := .cons hb (.cons hb hk)
  dsimp only
  split_ifs
  · exact ⟨⟨hr, hk⟩, hst⟩
  · exact ⟨⟨hr, hnext⟩, hst⟩
  · exact ⟨⟨hr, hk⟩, hst.keep ⟨hr, hnext⟩⟩
  · exact ⟨⟨hr, hnext⟩, hst.keep ⟨hr, hk⟩⟩

theorem subjectEnd_holds : Holds bad P S (m.subjectEnd r st k) := by
  unfold subjectEnd
  split
  · exact failAt_holds hst _
  · exact orEnd_holds hst fun st hst => ⟨⟨hr, hk⟩, hst⟩

theorem lastLineEnd_holds : Holds bad P S (m.lastLineEnd r st k) := by
  unfold lastLineEnd
  exact ite_holds (orEnd_holds hst fun st hst => failAt_holds hst _)
    (orEnd_holds hst fun st hst => ⟨⟨hr, hk⟩, hst⟩)

theorem wordEdge_holds (negated : Bool) : Holds bad P S (m.wordEdge negated r st k) := by
  unfold wordEdge
  refine orEnd_holds ?_ fun st hst => ?_
  · split <;> exact hst
  · dsimp only
    split
    · exact ⟨⟨hr, hk⟩, by split <;> exact hst⟩
    · exact failAt_holds (by split <;> exact hst) _

theorem anchor_holds (a : Anchor) : Holds bad P S (m.anchor a r st k) := by
  have htest : ∀ holds : Bool,
      Holds bad P S (if holds then (.go r k, st) else failAt r.pos st) := by
    intro holds
    split
    · exact ⟨⟨hr, hk⟩, hst⟩
    · exact failAt_holds hst _
  unfold anchor
  dsimp only
  split
  · exact htest _
  · exact htest _
  · exact htest _
  · split <;> exact htest _
  · split_ifs
    · exact failAt_holds hst _
    · exact subjectEnd_holds hr hk hst
    · exact lastLineEnd_holds hr hk hst
  · split_ifs
    · exact ⟨⟨hr, hk⟩, hst⟩
    · exact orEnd_holds hst fun st hst => failAt_holds hst _
    · exact failAt_holds hst _
    · exact orEnd_holds hst fun st hst => ⟨⟨hr, hk⟩, hst⟩
  · exact subjectEnd_holds hr hk hst
  · exact lastLineEnd_holds hr hk hst
  · exact wordEdge_holds hr hk hst _

theorem call_holds (hroot : m.whole.root.Free bad) (g : Nat) : Holds bad P S (m.call g r st k) := by
  unfold call
  dsimp only
  split
  · exact failAt_holds hst _
  next body hbody =>
    have hfree : body.Free bad := by
      split at hbody
      · cases hbody; exact hroot
      · exact hroot.group? hbody
    exact ite_holds ⟨trivial, hst⟩
      ⟨⟨⟨hr.pos, hr.start, hr.slots⟩, .cons hfree (.cons hr.slots hk)⟩, hst.keep trivial⟩

omit hk in
theorem finish_holds (accepted : Bool) : Holds bad P S (m.finish accepted r st) := by
  unfold finish
  split_ifs
  · exact failAt_holds hst _
  · exact ⟨trivial, hst⟩
  · exact failAt_holds hst _
  · exact ⟨hr, hst⟩

theorem accept_holds : Holds bad P S (m.accept r st k) := by
  induction k generalizing r with
  | nil => exact finish_holds hr hst true
  | cons f k ih =>
    obtain ⟨hf, hrest⟩ := List.forall_mem_cons.1 hk
    cases f with
    | close g start =>
      refine ih ⟨hr.pos, hr.start, ?_⟩ hrest
      show HoldsIn P (if _ then _ else _)
      split
      · exact hr.slots.set hf hr.pos g
      · exact hr.slots
    | back g slots height => exact ⟨⟨hr, .cons trivial (.cons hf hrest)⟩, hst⟩
    | looked | refuse => exact ⟨⟨hr, .cons hf hrest⟩, hst⟩
    | node | again | cut | arrive => exact ih hr hrest

theorem obey_holds (v : Verb) : Holds bad P S (m.obey v r st k) := by
  unfold obey
  split
  · exact failAt_holds hst _
  · exact accept_holds hr hk hst
  · exact ⟨⟨hr, hk⟩, hst.keep hr.pos⟩

theorem general_holds (q : Repeat) (body : Node) (hb : body.Free bad) :
    Holds bad P S (repeated.general q body r st k) := by
  have hcut : FramesHold bad P (.cut st.choices.size :: k) := .cons trivial hk
  exact ite_holds (repeatNode_holds hr hcut hst _ _ hb) (repeatNode_holds hr hk hst _ _ hb)

include hc

theorem repeatPiece_holds (p : Piece) (q : Repeat) (hp : (Node.piece p).Free bad) :
    Holds bad P S (m.repeatPiece p q r st k) := by
  refine orEnd_holds hst fun st hst => ?_
  split
  · exact failAt_holds hst _
  next pos hnext =>
    dsimp only
    have hpos : P pos := biteTimes_holds hc hp.not_bad hr.pos hnext
    have hr' : Regs.Holds P S { r with pos } := ⟨hpos, hr.start, hr.slots⟩
    have hone : ∀ s ∈ [pos], P s := List.forall_mem_singleton.2 hpos
    have hstops := fun left =>
      biteMany_holds hc hp.not_bad hpos hone left false (m.size - pos + 1)
    refine ite_holds ⟨⟨hr', hk⟩, hst⟩ (ite_holds ?_ ?_)
    · refine ⟨⟨hr', hk⟩, hst.keep ⟨hr', .cons ?_ hk⟩⟩
      exact Node.free_repeated.2 ⟨hc.repeated _ _, hp⟩
    · refine orEnd_holds hst fun st hst => ?_
      exact ite_holds (goAt_holds hr' hk hst (headD_holds hpos (hstops _)))
        (fromPlaces_holds hr' hk hst (hstops _))

theorem reference_holds (groups : List Nat) (caseless : Bool) :
    Holds bad P S (m.reference groups caseless r st k) := by
  unfold reference
  dsimp only
  split
  · next q hq =>
    refine goAt_holds hr hk hst ?_
    split at hq
    · cases hq
    · next s hs =>
      obtain ⟨hstart, hstop⟩ := referent?_holds hr hs
      split at hq
      · exact hc.same s r.pos q hstart hstop hr.pos hq
      · exact hc.equal s r.pos q hstart hstop hr.pos hq
  · exact orEnd_holds hst fun st hst => failAt_holds hst _

theorem behind_holds (q : Reach) (body : Node) (hb : body.Free bad) :
    Holds bad P S (m.behind q body r st k) := by
  unfold behind
  dsimp only
  have hbody : FramesHold bad P (.node body :: k) := .cons hb hk
  have harrive : FramesHold bad P (.node body :: .arrive r.pos :: k) := .cons hb (.cons trivial hk)
  have hused : ∀ used, State.Holds bad P S { st with startUsed := used } := fun _ => hst
  have hplaces : ∀ s ∈ m.before r.pos [r.pos] q.max, P s :=
    before_holds hc hr.pos (List.forall_mem_singleton.2 hr.pos)
  split_ifs
  · exact failAt_holds hst _
  · exact goAt_holds hr hbody (hused _) (headD_holds hr.pos hplaces)
  · exact fromPlaces_holds hr harrive (hused _) fun s hs => hplaces s (List.mem_of_mem_take hs)

theorem repeated_holds (q : Repeat) (body : Node) (hb : body.Free bad) :
    Holds bad P S (m.repeated q body r st k) := by
  unfold repeated
  split
  · exact repeatPiece_holds hc hr hk hst _ _ hb
  · exact ⟨⟨hr, hk⟩, hst⟩
  · split <;> split
    · exact ⟨⟨hr, hk⟩, hst⟩
    · exact general_holds hr hk hst _ _ hb
    · exact ⟨⟨hr, hk⟩, hst⟩
    · exact general_holds hr hk hst _ _ hb
  · exact general_holds hr hk hst _ _ hb

theorem node_holds (hroot : m.whole.root.Free bad) (n : Node) (hn : n.Free bad) :
    Holds bad P S (m.node n r st k) := by
  cases n with
  | empty => exact ⟨⟨hr, hk⟩, hst⟩
  | piece p => exact afterBite_holds hr hk hst fun q hq => hc.bite p r.pos q hn.not_bad hr.pos hq
  | anchor a => exact anchor_holds hr hk hst a
  | keep => exact ⟨⟨⟨hr.pos, hc.keep hn.not_bad r.pos hr.pos, hr.slots⟩, hk⟩, hst⟩
  | verb v => exact obey_holds hr hk hst v
  | reference groups caseless => exact reference_holds hc hr hk hst groups caseless
  | call g => exact call_holds hr hk hst hroot g
  | missing offset => exact failAt_holds hst _
  | seq a b =>
    obtain ⟨-, ha, hb⟩ := Node.free_seq.1 hn
    exact ⟨⟨hr, .cons ha (.cons hb hk)⟩, hst⟩
  | alt a b =>
    obtain ⟨-, ha, hb⟩ := Node.free_alt.1 hn
    exact ⟨⟨hr, .cons ha hk⟩, hst.keep ⟨hr, .cons hb hk⟩⟩
  | group g body =>
    obtain ⟨-, hb⟩ := Node.free_group.1 hn
    cases g with
    | plain => exact ⟨⟨hr, .cons hb hk⟩, hst⟩
    | capture g => exact ⟨⟨hr, .cons hb (.cons hr.pos hk)⟩, hst⟩
    | atomic => exact ⟨⟨hr, .cons hb (.cons trivial hk)⟩, hst⟩
  | look d offset body =>
    obtain ⟨-, hb⟩ := Node.free_look.1 hn
    have hotherwise : Choice.Holds bad P S (.otherwise r k) := ⟨hr, hk⟩
    exact ite_holds ⟨⟨hr, .cons hb (.cons trivial hk)⟩, hst.keep hotherwise⟩
      ⟨⟨hr, .cons hb (.cons hr.pos hk)⟩, hst⟩
  | behind q body => exact behind_holds hc hr hk hst q body (Node.free_behind.1 hn).2
  | choice c two yes no =>
    obtain ⟨-, hyes, hno⟩ := Node.free_choice.1 hn
    refine ⟨⟨hr, .cons ?_ hk⟩, hst⟩
    show Node.Free bad (if takesFirst c r then yes else no)
    split
    · exact hyes
    · exact hno
  | lookChoice d offset two test yes no =>
    obtain ⟨-, htest, hyes, hno⟩ := Node.free_lookChoice.1 hn
    unfold node
    dsimp only
    have hboth : ∀ {a b : Node}, a.Free bad → b.Free bad → Holds bad P S
        (.go r (.node test :: .looked st.choices.size r.pos :: .node a :: k),
          keep (.otherwise r (.node b :: k)) st) := fun ha hb =>
      ⟨⟨hr, .cons htest (.cons hr.pos (.cons ha hk))⟩, hst.keep ⟨hr, .cons hb hk⟩⟩
    cases d.negated
    · exact hboth hyes hno
    · exact hboth hno hyes
  | repeated q body => exact repeated_holds hc hr hk hst q body (Node.free_repeated.1 hn).2

theorem frame_holds (hroot : m.whole.root.Free bad) (f : Frame) (hf : f.Holds bad P) :
    Holds bad P S (m.frame f r st k) := by
  cases f with
  | node n => exact node_holds hc hr hk hst hroot n hf
  | close g start => exact ⟨⟨⟨hr.pos, hr.start, hr.slots.set hf hr.pos g⟩, hk⟩, hst⟩
  | again q body start => exact ite_holds ⟨⟨hr, hk⟩, hst⟩ (repeatNode_holds hr hk hst _ _ hf)
  | cut height => exact ⟨⟨hr, hk⟩, hst.cutTo height⟩
  | arrive origin => exact ite_holds ⟨⟨hr, hk⟩, hst⟩ (failAt_holds hst _)
  | looked height origin =>
    have hused : State.Holds bad P S { st with lastUsed := max st.lastUsed r.pos } := hst
    exact goAt_holds hr hk (hused.cutTo height) hf
  | refuse height => exact failAt_holds (hst.cutTo height) _
  | back g slots height =>
    refine ⟨⟨⟨hr.pos, hr.start, hf⟩, hk⟩, ?_⟩
    show State.Holds bad P S (if g = 0 then cutTo height st else st)
    split
    · exact hst.cutTo height
    · exact hst

omit hc hr hk

theorem retry_holds : Holds bad P S (retry st) := by
  unfold retry
  split
  · exact ⟨trivial, hst⟩
  next c hc =>
    have hchoice := hst.back? hc
    cases c with
    | resume r k | otherwise r k => exact ⟨hchoice, hst.pop⟩
    | places r stops k =>
      obtain ⟨hr, hstops, hk⟩ := hchoice
      exact fromPlaces_holds hr hk hst.pop hstops
    | caller => exact ⟨trivial, hst.pop⟩
    | verb => exact ⟨hchoice, hst.pop⟩

theorem unwind_holds (v : Verb) {pos : Nat} (hpos : P pos) (call : Option Nat) :
    Holds bad P S (unwind v pos call st) := by
  unfold unwind
  split
  · exact ⟨hpos, hst⟩
  next c hc =>
    have hchoice := hst.back? hc
    cases c with
    | otherwise r k => exact ⟨hchoice, hst.pop⟩
    | caller g =>
      refine ⟨?_, hst.pop⟩
      show Task.Holds bad P S (if call = some g then .fail else .unwind v pos call)
      split
      · trivial
      · exact hpos
    | resume | places | verb => exact ⟨hpos, hst.pop⟩

include hc

theorem step_holds (hroot : m.whole.root.Free bad) {t : Task} (ht : t.Holds bad P S) :
    Holds bad P S (m.step t st) := by
  match t, ht with
  | .go r [], ht => exact finish_holds ht.1 hst false
  | .go r (f :: k), ht =>
    obtain ⟨hf, hk⟩ := List.forall_mem_cons.1 ht.2
    exact frame_holds hc ht.1 hk hst hroot f hf
  | .fail, _ => exact retry_holds hst
  | .unwind v pos call, ht => exact unwind_holds hst v ht call
  | .stop v, ht => exact ⟨ht, hst⟩

theorem steps_holds (hroot : m.whole.root.Free bad) {t : Task} (ht : t.Holds bad P S) (fuel : Nat) :
    (m.steps t st fuel).1.Holds P S := by
  -- a step that fails takes its next task from the state, so both are kept together
  induction fuel generalizing t st with
  | zero => trivial
  | succ fuel ih =>
    rcases t.isStop_or with ⟨v, rfl⟩ | hgo
    · exact ht
    · rw [steps_succ hgo]
      split
      · trivial
      · obtain ⟨htask, hstate⟩ := step_holds hc hst hroot ht
        exact ih hstate htask

omit hst in
/-- What holds of the place where an attempt begins holds of all offsets in what it comes to. -/
theorem attempt_holds (hroot : m.whole.root.Free bad) {start : Nat} (hpos : P start)
    (hstart : S start) : (m.attempt start).1.Holds P S := by
  have hempty : State.Holds bad P S ⟨#[], false, start, start, 1⟩ := fun c hc =>
    absurd hc (Array.not_mem_empty c)
  have hwhole : FramesHold bad P [.node m.whole.root] := .cons hroot fun _ hf =>
    absurd hf List.not_mem_nil
  have hslots : HoldsIn P (Array.replicate (m.whole.groups + 1) none) := fun s hs =>
    absurd (Array.eq_of_mem_replicate hs) nofun
  exact steps_holds hc hempty hroot (t := .go ⟨start, start, _, []⟩ _) ⟨⟨hpos, hstart, hslots⟩, hwhole⟩ _

end Machine

end Rematch.Regex
