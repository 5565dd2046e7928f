import Mathlib.Tactic.Simps.Basic
import Mathlib.Tactic.Ring
import Mathlib.Tactic.SplitIfs
import Rematch.Proofs.Carried

/-! # The same way through a longer subject

What a machine does from one start on depends on the bytes behind it, as long as nothing looks back from
there (`Node.looksBack`). With more bytes in front, every step of it is the same, with all offsets
shifted (`step_shift`), and so is a whole attempt that does not run into a limit (`attempt_shift`). -/

namespace Rematch.Regex

/-- The first units have the second ones behind their first `d` bytes. -/
structure Units.Extends (d : Nat) (u v : Units) : Prop where
  utf : u.utf = v.utf
  size : u.size = d + v.size
  byte : ∀ i, u.byte (d + i) = v.byte i

namespace Units.Extends
variable {d : Nat} {u v : Units} (h : Extends d u v)
include h

theorem size_le (i : Nat) : u.size ≤ d + i ↔ v.size ≤ i := by
  rw [h.size]; omega

theorem lt_size (i : Nat) : d + i < u.size ↔ i < v.size := by
  rw [h.size]; omega

theorem get (i : Nat) : u.get (d + i) = v.get i := by
  simp only [Units.get, h.utf, h.byte, Nat.add_assoc]

theorem next (i : Nat) : u.next (d + i) = d + v.next i := by
  have hskip : ∀ fuel i, Units.next.skip u (d + i) fuel = d + Units.next.skip v i fuel := by
    intro fuel
    induction fuel with
    | zero => intro i; rfl
    | succ fuel ih =>
      intro i
      simp only [Units.next.skip, h.lt_size, h.byte]
      split
      · exact ih (i + 1)
      · rfl
  simp only [Units.next, h.utf]
  split
  · exact hskip 6 (i + 1)
  · rfl

theorem newlineAt (n : Newline) (i : Nat) : u.newlineAt n (d + i) = v.newlineAt n i := by
  have hsucc : u.byte (d + i + 1) = v.byte (i + 1) := h.byte (i + 1)
  have hlt : d + i + 1 < u.size ↔ i + 1 < v.size := h.lt_size (i + 1)
  simp only [Units.newlineAt, h.size_le, h.get, h.utf, hsucc, hlt]

end Units.Extends

def Bite.shift (d : Nat) (b : Bite) : Bite := { b with next := b.next.map (d + ·), seen := d + b.seen }

/-- The machine on another subject and with another origin. -/
@[simps]
def Machine.on (m : Machine) (u : Units) (origin : Nat) : Machine := { m with subject := u, origin }

namespace Machine
variable {d o : Nat} {u : Units} {m : Machine} (h : u.Extends d m.subject)
include h

theorem size_on : (m.on u o).size = d + m.size := h.size

theorem endsInNewline_shift (pos : Nat) :
    (m.on u o).endsInNewline (d + pos) = m.endsInNewline pos := by
  have heq : d + pos + 1 = d + m.size ↔ pos + 1 = m.size := by omega
  simp only [endsInNewline, size_on h, heq, on_subject, on_newline, h.byte]

theorem commonBytes_shift (c pos : Nat) :
    (m.on u o).commonBytes c (d + pos) = d + m.commonBytes c pos := by
  simp only [commonBytes, on_subject, Nat.add_assoc, h.byte]

theorem biteAtom_shift (a : Atom) (pos : Nat) :
    (m.on u o).biteAtom a (d + pos) = (m.biteAtom a pos).shift d := by
  unfold biteAtom
  simp only [size_on h, Nat.add_le_add_iff_left, endsInNewline_shift h, commonBytes_shift h,
    on_subject, on_newline, on_whole, h.get, h.newlineAt, h.utf]
  split
  · rfl
  · split
    · rfl
    · split <;> simp [Bite.shift, Nat.add_assoc]
    · split
      · simp [Bite.shift, Nat.add_assoc]
      · split <;> simp [Bite.shift, Nat.add_assoc]
    · split <;> simp [Bite.shift, Nat.add_assoc]

theorem biteNewline_shift (pos : Nat) :
    (m.on u o).biteNewline (d + pos) = (m.biteNewline pos).shift d := by
  unfold biteNewline
  simp only [size_on h, Nat.add_le_add_iff_left, Nat.add_assoc, 
    on_subject, on_bsr, h.get, h.byte]
  split_ifs <;> rfl

theorem bite_shift (p : Piece) (pos : Nat) :
    (m.on u o).bite p (d + pos) = (m.bite p pos).shift d := by
  cases p with
  | atom a => exact biteAtom_shift h a pos
  | newline => exact biteNewline_shift h pos

theorem biteAgain_shift (p : Piece) (pos : Nat) :
    (m.on u o).biteAgain p (d + pos) = (m.biteAgain p pos).shift d := by
  cases p with
  | atom a => exact biteAtom_shift h a pos
  | newline =>
    simp only [biteAgain, biteNewline_shift h]
    cases hn : (m.biteNewline pos).next <;> simp [Bite.shift, hn]

theorem biteTimes_shift (p : Piece) (pos times : Nat) :
    (m.on u o).biteTimes p (d + pos) times = (m.biteTimes p pos times).shift d := by
  induction times generalizing pos with
  | zero => rfl
  | succ times ih =>
    rw [biteTimes, biteTimes, biteAgain_shift h]
    cases hn : (m.biteAgain p pos).next with
    | none => simp [Bite.shift, hn]
    | some next => simp [Bite.shift, hn, ih]

theorem biteMany_shift (p : Piece) (pos : Nat) (stops : List Nat) (left : Option Nat)
    (inNewline : Bool) (fuel : Nat) :
    (m.on u o).biteMany p (d + pos) (stops.map (d + ·)) left inNewline fuel =
      ((m.biteMany p pos stops left inNewline fuel).1.map (d + ·),
        (m.biteMany p pos stops left inNewline fuel).2.shift d) := by
  induction fuel generalizing pos stops left inNewline with
  | zero => rfl
  | succ fuel ih =>
    rw [biteMany, biteMany, biteAgain_shift h]
    split
    · rfl
    cases hn : (m.biteAgain p pos).next with
    | none => simp [Bite.shift, hn]
    | some next =>
      have hlast : d + next = d + m.size ↔ next = m.size := by omega
      simp only [Bite.shift, hn, Option.map_some, size_on h, on_subject, h.byte, hlast]
      split
      · rfl
      · rw [← List.map_cons, ih]; rfl

theorem sameAt_shift (i stop pos fuel : Nat) :
    (m.on u o).sameAt (d + i) (d + stop) (d + pos) fuel = (m.sameAt i stop pos fuel).shift d := by
  induction fuel generalizing i pos with
  | zero => rfl
  | succ fuel ih =>
    simp only [sameAt, size_on h, Nat.add_le_add_iff_left, on_subject, on_whole, h.get, Nat.add_assoc, ih]
    split_ifs <;> rfl

theorem equalAt_shift (i stop pos fuel : Nat) :
    (m.on u o).equalAt (d + i) (d + stop) (d + pos) fuel = (m.equalAt i stop pos fuel).shift d := by
  induction fuel generalizing i pos with
  | zero => rfl
  | succ fuel ih =>
    simp only [equalAt, size_on h, Nat.add_le_add_iff_left, on_subject, h.byte, Nat.add_assoc, ih]
    split_ifs <;> rfl

end Machine

/-- The node looks at what stands before it, or at where the search starts, if that counts. -/
def Node.looksBack (start : Bool) : Node → Bool
  | .anchor .subjectStart | .anchor (.lineStart _) | .anchor (.wordEdge _) | .behind .. => true
  | .anchor .searchStart => start
  | _ => false

/-! ### Shifted states -/

section
variable (d : Nat)

def Slots.shift (s : Slots) : Slots := s.map (Option.map (·.shift d))

def Call.shift (c : Call) : Call := { c with pos := d + c.pos, lastUsed := d + c.lastUsed }

def Regs.shift (r : Regs) : Regs :=
  ⟨d + r.pos, d + r.start, Slots.shift d r.slots, r.calls.map (Call.shift d)⟩

def Frame.shift : Frame → Frame
  | .close g start => .close g (d + start)
  | .again q body start => .again q body (d + start)
  | .arrive origin => .arrive (d + origin)
  | .looked height origin => .looked height (d + origin)
  | .back g slots height => .back g (Slots.shift d slots) height
  | f => f

def Choice.shift : Choice → Choice
  | .resume r k => .resume (r.shift d) (k.map (Frame.shift d))
  | .places r stops k => .places (r.shift d) (stops.map (d + ·)) (k.map (Frame.shift d))
  | .otherwise r k => .otherwise (r.shift d) (k.map (Frame.shift d))
  | .verb v pos call => .verb v (d + pos) call
  | .caller g => .caller g

def Verdict.shift : Verdict → Verdict
  | .matched r => .matched (r.shift d)
  | .verb v pos => .verb v (d + pos)
  | v => v

def Task.shift : Task → Task
  | .go r k => .go (r.shift d) (k.map (Frame.shift d))
  | .unwind v pos call => .unwind v (d + pos) call
  | .stop v => .stop (v.shift d)
  | .fail => .fail

def State.shift (st : State) : State where
  choices := st.choices.map (Choice.shift d)
  hitEnd := st.hitEnd
  startUsed := d + st.startUsed
  lastUsed := d + st.lastUsed
  count := st.count

/-- A task and a state with all offsets shifted. -/
def shiftBoth (x : Task × State) : Task × State := (x.1.shift d, x.2.shift d)

end

namespace Machine
variable {d o : Nat} {u : Units} {m : Machine} {r : Regs} {st : State} {k : List Frame}

theorem failAt_shift (seen : Nat) (st : State) :
    failAt (d + seen) (st.shift d) = shiftBoth d (failAt seen st) := by
  simp [failAt, shiftBoth, State.shift, Task.shift, Nat.add_max_add_left]

theorem ite_shift {p : Prop} [Decidable p] {x y x' y' : Task × State} (hx : x' = shiftBoth d x)
    (hy : y' = shiftBoth d y) : (if p then x' else y') = shiftBoth d (if p then x else y) := by
  split
  · exact hx
  · exact hy

theorem keep_shift (c : Choice) (st : State) :
    keep (c.shift d) (st.shift d) = (keep c st).shift d := by
  simp [keep, State.shift]

theorem cutTo_shift (height : Nat) (st : State) :
    cutTo height (st.shift d) = (cutTo height st).shift d := by
  simp [cutTo, State.shift]

theorem goKeep_shift (c : Choice) (r : Regs) (st : State) (k : List Frame) :
    (Task.go (r.shift d) (k.map (Frame.shift d)), keep (c.shift d) (st.shift d)) =
      shiftBoth d (.go r k, keep c st) := by
  rw [keep_shift]; rfl

theorem slots_shift (r : Regs) (g : Nat) :
    ((r.shift d).slots[g]?).join = ((r.slots[g]?).join).map (·.shift d) := by
  rw [Regs.shift, Slots.shift, Array.getElem?_map]
  rcases r.slots[g]? with _ | _ | s <;> rfl

theorem referent?_shift (groups : List Nat) (r : Regs) :
    referent? groups (r.shift d) = (referent? groups r).map (·.shift d) := by
  unfold referent?
  induction groups with
  | nil => rfl
  | cons g groups ih =>
    rw [List.findSome?_cons, List.findSome?_cons]
    rw [slots_shift]
    cases (r.slots[g]?).join with
    | none => exact ih
    | some s => rfl

theorem orEnd_shift {short : Bool} {next next' : State → Task × State}
    (hnext : ∀ st : State, next' (st.shift d) = shiftBoth d (next st)) :
    (m.on u o).orEnd short (st.shift d) next' = shiftBoth d (m.orEnd short st next) := by
  unfold orEnd
  simp only [on_part]
  split_ifs
  · rfl
  · exact hnext { st with hitEnd := true }
  · exact hnext st

theorem fromPlaces_shift (r : Regs) (stops : List Nat) (st : State) (k : List Frame) :
    fromPlaces (r.shift d) (stops.map (d + ·)) (st.shift d) (k.map (Frame.shift d)) =
      shiftBoth d (fromPlaces r stops st k) := by
  match stops with
  | [] => exact failAt_shift r.pos st
  | [pos] => rfl
  | pos :: p :: rest => exact goKeep_shift (.places r (p :: rest) k) { r with pos } st k

theorem repeatNode_shift (body : Node) (q : Repeat) (r : Regs) (st : State) (k : List Frame) :
    repeatNode body q (r.shift d) (st.shift d) (k.map (Frame.shift d)) =
      shiftBoth d (repeatNode body q r st k) := by
  unfold repeatNode
  dsimp only
  let next : List Frame :=
    .node body :: .again ⟨q.min - 1, q.max.map (· - 1), q.greed⟩ body r.pos :: k
  split_ifs
  · rfl
  · rfl
  · exact goKeep_shift (.resume r next) r st k
  · exact goKeep_shift (.resume r k) r st next

/-- The match that is complete is no other: neither place matters, or the search starts there too. -/
def SameOrigin (start : Bool) (d o : Nat) (m : Machine) : Prop :=
  o = d + m.origin ∨ start = true ∧ m.notEmptyAtStart = false

theorem finish_shift {start : Bool} (hsize : u.size = d + m.subject.size)
    (ho : SameOrigin start d o m) (accepted : Bool) (r : Regs) (st : State) :
    (m.on u o).finish accepted (r.shift d) (st.shift d) = shiftBoth d (m.finish accepted r st) := by
  have hempty : ((r.shift d).pos = (r.shift d).start ↔ r.pos = r.start) := Nat.add_left_cancel_iff
  have hstart : (m.notEmptyAtStart && decide ((r.shift d).start = o)) =
      (m.notEmptyAtStart && decide (r.start = m.origin)) := by
    rcases ho with rfl | ⟨-, hn⟩
    · simp [Regs.shift]
    · simp [hn]
  have hend : ((r.shift d).pos < (m.on u o).size ↔ r.pos < m.size) := by
    show d + r.pos < u.size ↔ r.pos < m.subject.size
    omega
  unfold finish
  simp only [on_notEmpty, on_notEmptyAtStart, on_origin, on_endAnchored, hempty, hstart, hend]
  split_ifs
  · exact failAt_shift r.pos st
  · rfl
  · exact failAt_shift r.pos st
  · rfl

section
variable (h : u.Extends d m.subject)
include h

omit h in
theorem runsShort_shift (st : State) (pos : Nat) :
    (m.on u o).runsShort (st.shift d) (d + pos) = m.runsShort st pos := by
  simp [runsShort, State.shift]

omit h in
theorem afterBite_shift (b : Bite) (r : Regs) (st : State) (k : List Frame) :
    (m.on u o).afterBite (b.shift d) (r.shift d) (st.shift d) (k.map (Frame.shift d)) =
      shiftBoth d (m.afterBite b r st k) := by
  have hpos : (b.shift d).next.getD (r.shift d).pos = d + b.next.getD r.pos := by
    cases hn : b.next <;> simp [Bite.shift, Regs.shift, hn]
  unfold afterBite
  rw [hpos, runsShort_shift]
  refine orEnd_shift fun st => ?_
  cases hn : b.next with
  | none => simpa [Bite.shift, hn] using failAt_shift b.seen st
  | some pos => simp [Bite.shift, hn]; rfl

theorem repeatPiece_shift (p : Piece) (q : Repeat) (r : Regs) (st : State) (k : List Frame) :
    (m.on u o).repeatPiece p q (r.shift d) (st.shift d) (k.map (Frame.shift d)) =
      shiftBoth d (m.repeatPiece p q r st k) := by
  unfold repeatPiece
  have htimes : (m.on u o).biteTimes p (r.shift d).pos q.min = (m.biteTimes p r.pos q.min).shift d :=
    biteTimes_shift h p r.pos q.min
  simp only [htimes, size_on h, runsShort_shift]
  refine orEnd_shift fun st => ?_
  cases hn : (m.biteTimes p r.pos q.min).next with
  | none => simpa [Bite.shift, hn] using failAt_shift _ st
  | some pos =>
    have hmany := biteMany_shift (o := o) h p pos [pos] (q.max.map (· - q.min)) false (m.size - pos + 1)
    have hfuel : d + m.size - (d + pos) + 1 = m.size - pos + 1 := by omega
    simp only [List.map_cons, List.map_nil] at hmany
    simp only [Bite.shift, hn, Option.map_some, hfuel, hmany, runsShort_shift]
    split_ifs
    · rfl
    · exact goKeep_shift (.resume { r with pos } (.node (.repeated _ (.piece p)) :: k)) { r with pos }
        st k
    · refine orEnd_shift fun st => ?_
      cases (m.biteMany p pos [pos] (q.max.map (· - q.min)) false (m.size - pos + 1)).1 <;> rfl
    · exact orEnd_shift fun st => fromPlaces_shift { r with pos } _ st k

theorem referred_shift (caseless : Bool) (s : Span) (pos : Nat) :
    (if caseless then (m.on u o).sameAt (s.shift d).start (s.shift d).stop (d + pos) ((s.shift d).width + 1)
      else (m.on u o).equalAt (s.shift d).start (s.shift d).stop (d + pos) ((s.shift d).width + 1)) =
    Bite.shift d (if caseless then m.sameAt s.start s.stop pos (s.width + 1)
      else m.equalAt s.start s.stop pos (s.width + 1)) := by
  rw [Span.width_shift]
  split
  · exact sameAt_shift h s.start s.stop pos _
  · exact equalAt_shift h s.start s.stop pos _

theorem endedAt_shift (pos : Nat) (st : State) :
    (m.on u o).orEnd (decide ((m.on u o).size ≤ d + pos) && (m.on u o).runsShort (st.shift d) (d + pos))
      (st.shift d) (fun st => failAt (d + pos) st) =
    shiftBoth d (m.orEnd (decide (m.size ≤ pos) && m.runsShort st pos) st fun st => failAt pos st) := by
  simp only [size_on h, Nat.add_le_add_iff_left, runsShort_shift]
  exact orEnd_shift fun st => failAt_shift pos st

theorem reference_shift (groups : List Nat) (caseless : Bool) (r : Regs) (st : State)
    (k : List Frame) :
    (m.on u o).reference groups caseless (r.shift d) (st.shift d) (k.map (Frame.shift d)) =
      shiftBoth d (m.reference groups caseless r st k) := by
  unfold reference
  rw [referent?_shift]
  cases referent? groups r with
  | none => exact endedAt_shift h r.pos st
  | some s =>
    have hbite := referred_shift (o := o) h caseless s r.pos
    obtain ⟨b, hb⟩ : ∃ b, (if caseless then m.sameAt s.start s.stop r.pos (s.width + 1)
      else m.equalAt s.start s.stop r.pos (s.width + 1)) = b := ⟨_, rfl⟩
    have hshort : (if b.short then (m.on u o).size else d + r.pos) =
        d + if b.short then m.size else r.pos := by
      split
      · exact size_on h
      · rfl
    simp only [Option.map_some, Regs.shift, hbite, hb]
    cases hn : b.next with
    | some pos => simp only [Bite.shift, hn, Option.map_some]; rfl
    | none =>
      simp only [Bite.shift, hn, Option.map_none, hshort]
      exact endedAt_shift h _ st

theorem subjectEnd_shift (r : Regs) (st : State) (k : List Frame) :
    (m.on u o).subjectEnd (r.shift d) (st.shift d) (k.map (Frame.shift d)) =
      shiftBoth d (m.subjectEnd r st k) := by
  have hlt : (r.shift d).pos < (m.on u o).size ↔ r.pos < m.size := h.lt_size r.pos
  unfold subjectEnd
  simp only [hlt]
  exact ite_shift (failAt_shift r.pos st) (orEnd_shift fun st => rfl)

theorem lastLineEnd_shift (r : Regs) (st : State) (k : List Frame) :
    (m.on u o).lastLineEnd (r.shift d) (st.shift d) (k.map (Frame.shift d)) =
      shiftBoth d (m.lastLineEnd r st k) := by
  have hlt : (r.shift d).pos < (m.on u o).size ↔ r.pos < m.size := h.lt_size r.pos
  have hnewline : (m.on u o).subject.newlineAt (m.on u o).newline (r.shift d).pos =
      m.subject.newlineAt m.newline r.pos := h.newlineAt m.newline r.pos
  have hsize : ∀ w, (r.shift d).pos + w = (m.on u o).size ↔ r.pos + w = m.size := by
    intro w
    rw [size_on h]
    show d + r.pos + w = d + m.size ↔ _
    omega
  have hends : (m.on u o).endsInNewline (r.shift d).pos = m.endsInNewline r.pos :=
    endsInNewline_shift h r.pos
  unfold lastLineEnd
  simp only [hlt, hnewline, hsize, hends]
  exact ite_shift (orEnd_shift fun st => failAt_shift r.pos st) (orEnd_shift fun st => rfl)

theorem anchor_shift {start : Bool} (ho : SameOrigin start d o m) {a : Anchor}
    (ha : Node.looksBack start (.anchor a) = false) (r : Regs) (st : State) (k : List Frame) :
    (m.on u o).anchor a (r.shift d) (st.shift d) (k.map (Frame.shift d)) =
      shiftBoth d (m.anchor a r st k) := by
  have hlt : (r.shift d).pos < (m.on u o).size ↔ r.pos < m.size := h.lt_size r.pos
  have hnewline : (m.on u o).subject.newlineAt (m.on u o).newline (r.shift d).pos =
      m.subject.newlineAt m.newline r.pos := h.newlineAt m.newline r.pos
  have hends : (m.on u o).endsInNewline (r.shift d).pos = m.endsInNewline r.pos :=
    endsInNewline_shift h r.pos
  have hshort : (m.on u o).runsShort (st.shift d) (r.shift d).pos = m.runsShort st r.pos :=
    runsShort_shift st r.pos
  cases a with
  | subjectStart | lineStart | wordEdge => cases ha
  | searchStart =>
    obtain rfl : o = d + m.origin := ho.resolve_right fun hs => by
      rw [hs.1] at ha; cases ha
    have heq : (r.shift d).pos = d + m.origin ↔ r.pos = m.origin := Nat.add_left_cancel_iff
    simp only [anchor, on_origin, heq]
    exact ite_shift rfl (failAt_shift r.pos st)
  | lineEnd multiline =>
    cases multiline with
    | false =>
      simp only [anchor, on_notEol, on_dollarEndOnly]
      exact ite_shift (failAt_shift r.pos st)
        (ite_shift (subjectEnd_shift h r st k) (lastLineEnd_shift h r st k))
    | true =>
      simp only [anchor, on_notEol, hlt, hnewline, hends]
      refine ite_shift (ite_shift rfl (orEnd_shift fun st => failAt_shift r.pos st)) ?_
      refine ite_shift (failAt_shift r.pos st) ?_
      rw [hshort]
      exact orEnd_shift fun st => rfl
  | subjectEnd => exact subjectEnd_shift h r st k
  | lastLineEnd => exact lastLineEnd_shift h r st k

omit h in
theorem call_shift (g : Nat) (r : Regs) (st : State) (k : List Frame) :
    (m.on u o).call g (r.shift d) (st.shift d) (k.map (Frame.shift d)) =
      shiftBoth d (m.call g r st k) := by
  have hfind : (r.shift d).calls.find? (·.group = g) =
      (r.calls.find? (·.group = g)).map (Call.shift d) := List.find?_map
  have hheight : (st.shift d).choices.size = st.choices.size := Array.size_map
  unfold call
  simp only [hfind, on_whole, hheight]
  split
  · exact failAt_shift r.pos st
  next body hbody =>
    have hgo := goKeep_shift (d := d) (.caller g) { r with calls := ⟨g, r.pos, st.lastUsed⟩ :: r.calls }
      st (.node body :: .back g r.slots st.choices.size :: k)
    cases r.calls.find? (·.group = g) with
    | none => exact hgo
    | some c =>
      have hpos : (Call.shift d c).pos = (r.shift d).pos ↔ c.pos = r.pos := Nat.add_left_cancel_iff
      have hused : (Call.shift d c).lastUsed = (st.shift d).lastUsed ↔ c.lastUsed = st.lastUsed :=
        Nat.add_left_cancel_iff
      simp only [Option.map_some, hpos, hused]
      exact ite_shift rfl hgo

omit h in
theorem set_shift (g : Nat) (s : Span) (slots : Slots) :
    (Slots.shift d slots).set! g (some (s.shift d)) = Slots.shift d (slots.set! g (some s)) := by
  simp [Slots.shift]

theorem accept_shift {start : Bool} (ho : SameOrigin start d o m) (r : Regs) (st : State)
    (k : List Frame) :
    (m.on u o).accept (r.shift d) (st.shift d) (k.map (Frame.shift d)) =
      shiftBoth d (m.accept r st k) := by
  induction k generalizing r with
  | nil => exact finish_shift h.size ho true r st
  | cons f k ih =>
    cases f with
    | close g start =>
      have hslots : (if (r.shift d).calls.isEmpty
          then (r.shift d).slots.set! g (some ⟨d + start, (r.shift d).pos⟩) else (r.shift d).slots) =
          Slots.shift d (if r.calls.isEmpty then r.slots.set! g (some ⟨start, r.pos⟩) else r.slots) := by
        have hempty : (r.shift d).calls.isEmpty = r.calls.isEmpty := List.isEmpty_map
        rw [hempty]
        split
        · exact set_shift g ⟨start, r.pos⟩ r.slots
        · rfl
      simp only [List.map_cons, Frame.shift, accept, hslots]
      exact ih { r with slots := if r.calls.isEmpty then r.slots.set! g (some ⟨start, r.pos⟩) else r.slots }
    | back | looked | refuse => rfl
    | node | again | cut | arrive => exact ih r

theorem obey_shift {start : Bool} (ho : SameOrigin start d o m) (v : Verb) (r : Regs) (st : State)
    (k : List Frame) :
    (m.on u o).obey v (r.shift d) (st.shift d) (k.map (Frame.shift d)) =
      shiftBoth d (m.obey v r st k) := by
  have hcall : (r.shift d).calls.head?.map (·.group) = r.calls.head?.map (·.group) := by
    cases hc : r.calls <;> simp [Regs.shift, Call.shift, hc]
  unfold obey
  rw [hcall]
  cases v with
  | fail => exact failAt_shift r.pos st
  | accept => exact accept_shift h ho r st k
  | _ => exact goKeep_shift (.verb _ r.pos _) r st k

omit h in
theorem general_shift (q : Repeat) (body : Node) (r : Regs) (st : State) (k : List Frame) :
    repeated.general q body (r.shift d) (st.shift d) (k.map (Frame.shift d)) =
      shiftBoth d (repeated.general q body r st k) := by
  have hheight : (st.shift d).choices.size = st.choices.size := Array.size_map
  unfold repeated.general
  rw [hheight]
  exact ite_shift (repeatNode_shift body _ r st (.cut st.choices.size :: k))
    (repeatNode_shift body _ r st k)

theorem repeated_shift (q : Repeat) (body : Node) (r : Regs) (st : State) (k : List Frame) :
    (m.on u o).repeated q body (r.shift d) (st.shift d) (k.map (Frame.shift d)) =
      shiftBoth d (m.repeated q body r st k) := by
  have hgeneral := general_shift (d := d) q body r st k
  unfold repeated
  split
  · exact repeatPiece_shift h _ q r st k
  · rfl
  · rw [referent?_shift]
    cases referent? _ r with
    | none => exact ite_shift rfl hgeneral
    | some s =>
      simp only [Option.map_some, Span.isEmpty_shift]
      exact ite_shift rfl hgeneral
  · exact hgeneral

omit h in
theorem takesFirst_shift (c : Condition) (r : Regs) : takesFirst c (r.shift d) = takesFirst c r := by
  cases c with
  | matched groups => simp only [takesFirst, referent?_shift, Option.isSome_map]
  | called groups =>
    cases groups <;> cases hc : r.calls <;> simp [takesFirst, Regs.shift, Call.shift, hc]
  | never => rfl

theorem node_shift {start : Bool} (ho : SameOrigin start d o m) {n : Node}
    (hn : Node.looksBack start n = false) (r : Regs) (st : State) (k : List Frame) :
    (m.on u o).node n (r.shift d) (st.shift d) (k.map (Frame.shift d)) =
      shiftBoth d (m.node n r st k) := by
  have hheight : (st.shift d).choices.size = st.choices.size := Array.size_map
  cases n with
  | empty | keep | seq => rfl
  | piece p =>
    have hbite := bite_shift (o := o) h p r.pos
    exact (congrArg (fun b => (m.on u o).afterBite b _ _ _) hbite).trans (afterBite_shift _ r st k)
  | anchor a => exact anchor_shift h ho hn r st k
  | verb v => exact obey_shift h ho v r st k
  | reference groups caseless => exact reference_shift h groups caseless r st k
  | call g => exact call_shift g r st k
  | missing => exact failAt_shift r.pos st
  | alt a b => exact goKeep_shift (.resume r (.node b :: k)) r st (.node a :: k)
  | group g body =>
    cases g with
    | plain | capture => rfl
    | atomic => simp only [node, hheight]; rfl
  | look direction offset body =>
    simp only [node, hheight]
    exact ite_shift (goKeep_shift (.otherwise r k) r st (.node body :: .refuse st.choices.size :: k)) rfl
  | behind => cases hn
  | choice c two yes no =>
    simp only [node, takesFirst_shift]
    rfl
  | lookChoice direction offset two test yes no =>
    simp only [node, hheight]
    cases direction.negated
    · exact goKeep_shift (.otherwise r (.node no :: k)) r st
        (.node test :: .looked st.choices.size r.pos :: .node yes :: k)
    · exact goKeep_shift (.otherwise r (.node yes :: k)) r st
        (.node test :: .looked st.choices.size r.pos :: .node no :: k)
  | repeated q body => exact repeated_shift h q body r st k

theorem frame_shift {start : Bool} (ho : SameOrigin start d o m) {f : Frame}
    (hf : f.Holds (Node.looksBack start) fun _ => True) (r : Regs) (st : State) (k : List Frame) :
    (m.on u o).frame (f.shift d) (r.shift d) (st.shift d) (k.map (Frame.shift d)) =
      shiftBoth d (m.frame f r st k) := by
  cases f with
  | node n => exact node_shift h ho (Node.Free.not_bad hf) r st k
  | close g start =>
    have hset := set_shift (d := d) g ⟨start, r.pos⟩ r.slots
    exact congrArg (fun slots => (Task.go { r.shift d with slots } _, st.shift d)) hset
  | again q body start =>
    have heq : (r.shift d).pos = d + start ↔ r.pos = start := Nat.add_left_cancel_iff
    simp only [Frame.shift, frame, heq]
    exact ite_shift rfl (repeatNode_shift body q r st k)
  | cut height => exact congrArg (Prod.mk _) (cutTo_shift height st)
  | arrive origin =>
    have heq : (r.shift d).pos = d + origin ↔ r.pos = origin := Nat.add_left_cancel_iff
    simp only [Frame.shift, frame, heq]
    exact ite_shift rfl (failAt_shift r.pos st)
  | looked height origin =>
    have hused : max (st.shift d).lastUsed (r.shift d).pos = d + max st.lastUsed r.pos :=
      Nat.add_max_add_left d _ _
    simp only [Frame.shift, frame, hused]
    exact congrArg (Prod.mk _) (cutTo_shift height { st with lastUsed := max st.lastUsed r.pos })
  | refuse height =>
    simp only [Frame.shift, frame, cutTo_shift]
    exact failAt_shift r.pos _
  | back g slots height =>
    have hcalls : (r.shift d).calls.tail = r.calls.tail.map (Call.shift d) := List.map_tail.symm
    simp only [Frame.shift, frame, hcalls, cutTo_shift]
    split_ifs <;> rfl

omit h in
theorem back?_shift (st : State) :
    (st.shift d).choices.back? = st.choices.back?.map (Choice.shift d) := by
  simp [State.shift]

omit h in
theorem pop_shift (st : State) : { st.shift d with choices := (st.shift d).choices.pop } =
    State.shift d { st with choices := st.choices.pop } := by
  simp [State.shift]

omit h in
theorem retry_shift (st : State) : retry (st.shift d) = shiftBoth d (retry st) := by
  unfold retry
  rw [back?_shift, pop_shift]
  cases st.choices.back? with
  | none => rfl
  | some c =>
    cases c with
    | places r stops k => exact fromPlaces_shift r stops _ k
    | _ => rfl

omit h in
theorem unwind_shift (v : Verb) (pos : Nat) (call : Option Nat) (st : State) :
    unwind v (d + pos) call (st.shift d) = shiftBoth d (unwind v pos call st) := by
  unfold unwind
  rw [back?_shift, pop_shift]
  cases st.choices.back? with
  | none => rfl
  | some c =>
    cases c with
    | caller g =>
      show ((if call = some g then Task.fail else _), _) = shiftBoth d ((if call = some g then _ else _), _)
      split_ifs <;> rfl
    | _ => rfl

theorem step_shift {start : Bool} (ho : SameOrigin start d o m) {t : Task}
    (ht : t.Holds (Node.looksBack start) (fun _ => True) fun _ => True) (st : State) :
    (m.on u o).step (t.shift d) (st.shift d) = shiftBoth d (m.step t st) := by
  match t, ht with
  | .go r [], _ => exact finish_shift h.size ho false r st
  | .go r (f :: k), ht => exact frame_shift h ho (List.forall_mem_cons.1 ht.2).1 r st k
  | .fail, _ => exact retry_shift st
  | .unwind v pos call, _ => exact unwind_shift v pos call st
  | .stop v, _ => rfl

theorem steps_shift {start : Bool} (ho : SameOrigin start d o m)
    (hroot : m.whole.root.Free (Node.looksBack start)) {t : Task} {st : State}
    (ht : t.Holds (Node.looksBack start) (fun _ => True) fun _ => True)
    (hst : st.Holds (Node.looksBack start) (fun _ => True) fun _ => True) (fuel : Nat) :
    (m.on u o).steps (t.shift d) (st.shift d) fuel =
      ((m.steps t st fuel).1.shift d, (m.steps t st fuel).2.shift d) := by
  -- the steps of both go in pairs as long as nothing left to do looks back, which each step keeps
  induction fuel generalizing t st with
  | zero => rfl
  | succ fuel ih =>
    rcases t.isStop_or with ⟨v, rfl⟩ | hgo
    · rfl
    · have hgo' : ∀ v, t.shift d ≠ .stop v := by
        intro v
        cases t with
        | stop v => exact absurd rfl (hgo v)
        | _ => exact nofun
      have hcount : (st.shift d).count = st.count := rfl
      have hc : Carried m (Node.looksBack start) (fun _ => True) fun _ => True :=
        .of_nodes (fun _ _ => rfl) fun _ _ => trivial
      obtain ⟨htask, hstate⟩ := step_holds hc hst hroot ht
      rw [steps_succ hgo, steps_succ hgo', on_limit, hcount, step_shift h ho ht]
      split
      · rfl
      · exact ih htask hstate

omit h in
/-- More fuel makes no difference, unless there was too little of it. -/
theorem steps_add {t : Task} {v : Verdict} {st' : State} (fuel more : Nat)
    (hs : m.steps t st fuel = (v, st')) (hv : v ≠ .limit) : m.steps t st (fuel + more) = (v, st') := by
  induction fuel generalizing t st with
  | zero => cases hs; exact absurd rfl hv
  | succ fuel ih =>
    rw [Nat.add_right_comm]
    rcases t.isStop_or with ⟨w, rfl⟩ | hgo
    · exact hs
    · rw [steps_succ hgo] at hs ⊢
      split at hs
      · cases hs; exact absurd rfl hv
      · next hlimit => rw [if_neg hlimit]; exact ih hs

/-- An attempt that looks at nothing before its start is made with the same result behind other bytes,
unless it runs into a limit. -/
theorem attempt_shift {start : Bool} (ho : SameOrigin start d o m)
    (hroot : m.whole.root.Free (Node.looksBack start)) {i : Nat} {v : Verdict}
    (hm : m.attempt i = (v, st)) (hv : v ≠ .limit) :
    (m.on u o).attempt (d + i) = (v.shift d, st.shift d) := by
  have hbegin : Task.Holds (Node.looksBack start) (fun _ => True) (fun _ => True)
      (.go ⟨i, i, Array.replicate (m.whole.groups + 1) none, []⟩ [.node m.whole.root]) :=
    ⟨⟨trivial, trivial, fun _ _ => ⟨trivial, trivial⟩⟩,
      .cons hroot fun _ hf => absurd hf List.not_mem_nil⟩
  have hempty : State.Holds (Node.looksBack start) (fun _ => True) (fun _ => True)
      ⟨#[], false, i, i, 1⟩ := fun c hc => absurd hc (Array.not_mem_empty c)
  have htask (slots : Slots) (hs : Slots.shift d slots = slots) (root : Node) :
      Task.shift d (.go ⟨i, i, slots, []⟩ [.node root]) = .go ⟨d + i, d + i, slots, []⟩ [.node root] := by
    rw [Task.shift, Regs.shift, hs]; rfl
  have hstate : State.shift d ⟨#[], false, i, i, 1⟩ = ⟨#[], false, d + i, d + i, 1⟩ := by
    rw [State.shift, Array.map_empty]
  have hfuel : 1000 * (1000 + (d + m.size)) * (1 + m.limit) =
      1000 * (1000 + m.size) * (1 + m.limit) + 1000 * d * (1 + m.limit) := by ring
  -- the longer subject is given more fuel, of which it makes no use
  have hrun := steps_shift h ho hroot hbegin hempty (1000 * (1000 + m.size) * (1 + m.limit))
  unfold attempt at hm ⊢
  rw [hm, hstate, htask _ (by simp [Slots.shift])] at hrun
  rw [size_on h, on_limit, on_whole, hfuel]
  refine steps_add _ _ hrun ?_
  cases v with
  | limit => exact absurd rfl hv
  | _ => exact nofun

end

end Machine

end Rematch.Regex
