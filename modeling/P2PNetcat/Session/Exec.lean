import P2PNetcat.Library.ByteCodec
import P2PNetcat.Library.StepSystem

/-!
# Running a command for a stream

`Exec` after its child has started: two goroutines copy the child's output to
the stream while the caller is in `child.Wait`, which closes the read ends of the
pipes once the child has exited. Every step may come between any two others.
-/

namespace P2PNetcat.Session
open List Function ByteCodec StepSystem

inductive OutputPipe where
  | stdout | stderr
  deriving DecidableEq

/-- Where a `copyOutput` goroutine is: in `source.Read`, before `stream.Write`, or gone. -/
inductive CopyOutput where
  | reading
  | writing (buffer : Bytes)
  | returned
  deriving DecidableEq

inductive ExecPhase where
  | childWait
  | outputGroupWait
  | closing
  | closedWrite
  deriving DecidableEq

structure ExecState where
  phase : ExecPhase := .childWait
  exited : Bool := false
  /-- Everything the child has written to the pipe. -/
  written : OutputPipe → Bytes := fun _ => []
  /-- What the pipe still holds. -/
  pipe : OutputPipe → Bytes := fun _ => []
  closedRead : Bool := false
  copy : OutputPipe → CopyOutput := fun _ => .reading
  /-- What has been written to the stream, and from which pipe. -/
  stream : List (OutputPipe × Bytes) := []

inductive ExecEvent where
  | childWrite (p : OutputPipe) (data : Bytes)
  | childExit
  | read (p : OutputPipe) (count : Nat)
  | readEOF (p : OutputPipe)
  | readClosed (p : OutputPipe)
  | write (p : OutputPipe) (count : Nat)
  | wait
  | outputGroupWait
  | closeWrite

def bufferSize : Nat := 32 * 1024

namespace ExecState

def step (s : ExecState) : ExecEvent → Option ExecState
  | .childWrite p data =>
    if s.exited = false then
      some { s with
        written := update s.written p (s.written p ++ data)
        pipe := update s.pipe p (s.pipe p ++ data) }
    else none
  | .childExit => if s.exited = false then some { s with exited := true } else none
  | .read p count =>
    if s.copy p = .reading ∧ s.closedRead = false ∧ 0 < count ∧ count ≤ bufferSize ∧
        count ≤ (s.pipe p).length then
      some { s with
        pipe := update s.pipe p ((s.pipe p).drop count)
        copy := update s.copy p (.writing ((s.pipe p).take count)) }
    else none
  | .readEOF p =>
    if s.copy p = .reading ∧ s.closedRead = false ∧ s.exited = true ∧ s.pipe p = [] then
      some { s with copy := update s.copy p .returned }
    else none
  | .readClosed p =>
    if s.copy p = .reading ∧ s.closedRead = true then
      some { s with copy := update s.copy p .returned }
    else none
  | .write p count =>
    match s.copy p with
    | .writing buffer =>
      -- the result of `stream.Write` is not looked at
      some { s with
        copy := update s.copy p .reading
        stream := s.stream ++ [(p, buffer.take count)] }
    | _ => none
  | .wait =>
    if s.phase = .childWait ∧ s.exited = true then
      some { s with phase := .outputGroupWait, closedRead := true, pipe := fun _ => [] }
    else none
  | .outputGroupWait =>
    if s.phase = .outputGroupWait ∧ s.copy .stdout = .returned ∧ s.copy .stderr = .returned then
      some { s with phase := .closing }
    else none
  | .closeWrite =>
    if s.phase = .closing then some { s with phase := .closedWrite } else none

def sent (s : ExecState) (p : OutputPipe) : Bytes :=
  (s.stream.filter (·.1 = p)).flatMap Prod.snd

def inHand (s : ExecState) (p : OutputPipe) : Bytes :=
  match s.copy p with
  | .writing buffer => buffer
  | _ => []

def Delivers (s : ExecState) : ExecEvent → Prop
  | .write p count => (s.inHand p).length ≤ count
  | _ => True

/-- Every byte of the pipe was sent, is in hand, is in the pipe or was dropped with it. -/
def Accounted (dropped : OutputPipe → Bytes) (s : ExecState) : Prop :=
  ∀ p, s.written p = s.sent p ++ s.inHand p ++ s.pipe p ++ dropped p

section Step
variable {s t : ExecState} {dropped : OutputPipe → Bytes} {e : ExecEvent}

theorem inHand_of_copy_ne {p : OutputPipe} (h : ∀ buffer, s.copy p ≠ .writing buffer) :
    s.inHand p = [] := by
  rw [inHand]
  split
  next buffer heq =>
    exact absurd heq (h buffer)
  · rfl

theorem inHand_returned {p q : OutputPipe} (h : s.copy p = .reading) :
    s.inHand q = { s with copy := update s.copy p .returned }.inHand q := by
  by_cases hpq : q = p
  · subst hpq
    rw [inHand, inHand, h]
    simp only [update_self]
  · simp only [inHand, update_of_ne hpq]

theorem sent_append (stream : List (OutputPipe × Bytes)) (p q : OutputPipe) (data : Bytes) :
    ((stream ++ [(p, data)]).filter (·.1 = q)).flatMap Prod.snd =
      (stream.filter (·.1 = q)).flatMap Prod.snd ++ if q = p then data else [] := by
  by_cases hpq : q = p
  · subst hpq
    simp
  · have hqp : ¬ p = q := fun heq => hpq heq.symm
    simp [hpq, hqp]

inductive Taken (s : ExecState) : ExecEvent → ExecState → Prop where
  | childWrite (p : OutputPipe) (data : Bytes) (hrunning : s.exited = false) :
      Taken s (.childWrite p data) { s with
        written := update s.written p (s.written p ++ data)
        pipe := update s.pipe p (s.pipe p ++ data) }
  | childExit (hrunning : s.exited = false) : Taken s .childExit { s with exited := true }
  | read (p : OutputPipe) (count : Nat) (hcopy : s.copy p = .reading) :
      Taken s (.read p count) { s with
        pipe := update s.pipe p ((s.pipe p).drop count)
        copy := update s.copy p (.writing ((s.pipe p).take count)) }
  | readEOF (p : OutputPipe) (hcopy : s.copy p = .reading) :
      Taken s (.readEOF p) { s with copy := update s.copy p .returned }
  | readClosed (p : OutputPipe) (hcopy : s.copy p = .reading) :
      Taken s (.readClosed p) { s with copy := update s.copy p .returned }
  | write (p : OutputPipe) (count : Nat) (buffer : Bytes) (hcopy : s.copy p = .writing buffer) :
      Taken s (.write p count) { s with
        copy := update s.copy p .reading
        stream := s.stream ++ [(p, buffer.take count)] }
  | wait (hphase : s.phase = .childWait) (hexited : s.exited = true) :
      Taken s .wait
        { s with phase := .outputGroupWait, closedRead := true, pipe := fun _ => [] }
  | outputGroupWait (hphase : s.phase = .outputGroupWait) (hcopy : ∀ p, s.copy p = .returned) :
      Taken s .outputGroupWait { s with phase := .closing }
  | closeWrite (hphase : s.phase = .closing) :
      Taken s .closeWrite { s with phase := .closedWrite }

theorem step_taken (hstep : s.step e = some t) : Taken s e t := by
  cases e with
  | write p count =>
    rw [step] at hstep
    split at hstep
    next buffer hcopy =>
      cases hstep
      exact .write p count buffer hcopy
    · cases hstep
  | childWrite p data | childExit | read p count | readEOF p | readClosed p | wait
  | outputGroupWait | closeWrite =>
    rw [step] at hstep
    split at hstep
    next henabled =>
      cases hstep
      first
      | exact .childWrite p data henabled
      | exact .childExit henabled
      | exact .read p count henabled.1
      | exact .readEOF p henabled.1
      | exact .readClosed p henabled.1
      | exact .wait henabled.1 henabled.2
      | exact .closeWrite henabled
      | exact .outputGroupWait henabled.1 fun p => by
          cases p
          · exact henabled.2.1
          · exact henabled.2.2
    · cases hstep

/-- The steps other than `Wait` account for all bytes; the child writes nothing once bytes have been
dropped. -/
theorem Accounted.taken (h : Accounted dropped s)
    (hexited : s.exited = true ∨ dropped = fun _ => []) (hok : s.Delivers e)
    (hwait : e ≠ .wait) (htaken : Taken s e t) : Accounted dropped t := by
  intro q
  have hq := h q
  cases htaken with
  | childWrite p data hrunning =>
    obtain rfl := hexited.resolve_left fun hexit => nomatch hexit.symm.trans hrunning
    simp only [update_apply, append_nil] at hq ⊢
    split
    next heq =>
      subst heq
      rw [hq, append_assoc]
      rfl
    · exact hq
  | childExit => exact hq
  | read p count hcopy =>
    by_cases hpq : q = p
    · subst hpq
      have hnone : s.inHand q = [] := inHand_of_copy_ne fun buffer heq =>
        nomatch heq.symm.trans hcopy
      rw [hnone, append_nil] at hq
      simp only [sent, inHand, update_self] at hq ⊢
      rw [hq, append_assoc _ (take count _), take_append_drop]
    · simp only [sent, inHand, update_of_ne hpq] at hq ⊢
      exact hq
  | readEOF p hcopy | readClosed p hcopy =>
    rw [inHand_returned hcopy] at hq
    exact hq
  | write p count buffer hcopy =>
    have hhand : s.inHand p = buffer := by rw [inHand, hcopy]
    have hall : buffer.take count = buffer := by
      rw [Delivers, hhand] at hok
      exact take_of_length_le hok
    simp only [sent, sent_append, hall]
    by_cases hpq : q = p
    · subst hpq
      simp only [inHand, update_self, if_true, append_nil]
      rw [hq, hhand]
      rfl
    · simp only [inHand, update_of_ne hpq, if_neg hpq, append_nil]
      exact hq
  | wait => exact absurd rfl hwait
  | outputGroupWait | closeWrite => exact hq

theorem Accounted.before (h : s.phase = .childWait → Accounted (fun _ => []) s)
    (hok : s.Delivers e) (htaken : Taken s e t) (hphase : t.phase = .childWait) :
    Accounted (fun _ => []) t := by
  have hs : s.phase = .childWait ∧ e ≠ .wait := by
    cases htaken with
    | wait | outputGroupWait | closeWrite => cases hphase
    | childWrite | childExit | read | readEOF | readClosed | write =>
      exact ⟨hphase, nofun⟩
  exact (h hs.1).taken (.inr rfl) hok hs.2 htaken

structure Dropped (dropped : OutputPipe → Bytes) (s : ExecState) : Prop where
  accounted : Accounted dropped s
  phase : s.phase ≠ .childWait
  exited : s.exited = true
  empty : ∀ p, s.pipe p = []
  joined : s.phase = .closing ∨ s.phase = .closedWrite → ∀ p, s.copy p = .returned

theorem Dropped.wait (h : Accounted (fun _ => []) s) (htaken : Taken s .wait t) :
    Dropped s.pipe t := by
  cases htaken with
  | wait _ hexited =>
    refine ⟨?_, nofun, hexited, fun _ => rfl, ?_⟩
    · intro q
      have hq := h q
      rw [append_nil] at hq ⊢
      exact hq
    · rintro (hphase | hphase) <;> cases hphase

theorem Dropped.taken (h : Dropped dropped s)
    (hok : s.Delivers e) (htaken : Taken s e t) : Dropped dropped t := by
  have hwait : e ≠ .wait := by
    rintro rfl
    cases htaken with
    | wait hphase => exact h.phase hphase
  have haccounted := h.accounted.taken (.inl h.exited) hok hwait htaken
  cases htaken with
  | childWrite _ _ hrunning | childExit hrunning => cases h.exited.symm.trans hrunning
  | read p count hcopy =>
    refine ⟨haccounted, h.phase, h.exited, ?_, ?_⟩
    · intro q
      simp only [update_apply, h.empty, drop_nil, ite_self]
    · intro hphase
      cases hcopy.symm.trans (h.joined hphase p)
  | readEOF p hcopy | readClosed p hcopy | write p _ _ hcopy =>
    refine ⟨haccounted, h.phase, h.exited, h.empty, ?_⟩
    intro hphase
    cases hcopy.symm.trans (h.joined hphase p)
  | wait => exact absurd rfl hwait
  | outputGroupWait _ hcopy => exact ⟨haccounted, nofun, h.exited, h.empty, fun _ => hcopy⟩
  | closeWrite hphase =>
    exact ⟨haccounted, nofun, h.exited, h.empty, fun _ => h.joined (.inl hphase)⟩

theorem Dropped.written (h : Dropped dropped s)
    (hclosed : s.phase = .closedWrite) (p : OutputPipe) :
    s.written p = s.sent p ++ dropped p := by
  have hreturned := h.joined (.inr hclosed) p
  have hnone : s.inHand p = [] := inHand_of_copy_ne fun buffer heq =>
    nomatch heq.symm.trans hreturned
  have haccounted := h.accounted p
  rw [hnone, h.empty p, append_nil, append_nil] at haccounted
  exact haccounted

end Step

/-- All output is on the stream when `Exec` calls `CloseWrite` exactly if both pipes had been read
empty when `Wait` closed them. -/
theorem exec_delivers_iff {s : ExecState} {es : List ExecEvent} (hrun : Run step Delivers {} es s)
    (hclosed : s.phase = .closedWrite) :
    ∃ fs gs u, es = fs ++ .wait :: gs ∧ Run step Delivers {} fs u ∧ u.phase = .childWait ∧
      ((∀ p, s.sent p = s.written p) ↔ ∀ p, u.pipe p = []) := by
  have hleave := hrun.exists_leave (P := fun s => s.phase = .childWait) rfl
    (fun h => nomatch h.symm.trans hclosed)
  obtain ⟨fs, e, gs, u, v, rfl, hbefore, hphase, hok, hstep, hleft, hafter⟩ := hleave
  have hwait : e = .wait := by
    cases step_taken hstep with
    | wait => rfl
    | outputGroupWait hother | closeWrite hother => cases hphase.symm.trans hother
    | childWrite | childExit | read | readEOF | readClosed | write =>
      exact absurd hphase hleft
  subst hwait
  have haccounted : Accounted (fun _ => []) u := by
    refine hbefore.invariant (I := fun s => s.phase = .childWait → Accounted (fun _ => []) s)
      ?_ ?_ hphase
    · intro s e t h hok hstep
      exact Accounted.before h hok (step_taken hstep)
    · intro _ p
      rfl
  have hdropped : Dropped u.pipe s :=
    hafter.invariant (fun h hok hstep => h.taken hok (step_taken hstep))
      (Dropped.wait haccounted (step_taken hstep))
  refine ⟨fs, gs, u, rfl, hbefore, hphase, ?_⟩
  constructor
  · intro hall p
    have hwritten := hdropped.written hclosed p
    rw [hall p] at hwritten
    exact self_eq_append_right.mp hwritten
  · intro hempty p
    rw [hdropped.written hclosed p, hempty p, append_nil]

section Example

theorem exec_delivers_iff_example : ∃ s,
    Run step Delivers {} [.childWrite .stdout [104, 105], .read .stdout 2, .write .stdout 2,
      .childExit, .wait, .readClosed .stdout, .readClosed .stderr, .outputGroupWait,
      .closeWrite] s ∧ s.phase = .closedWrite ∧ ∀ p, s.sent p = s.written p := by
  have hrun : ∃ s, Run step Delivers {} [.childWrite .stdout [104, 105], .read .stdout 2,
      .write .stdout 2, .childExit, .wait, .readClosed .stdout, .readClosed .stderr,
      .outputGroupWait, .closeWrite] s ∧ s.phase = .closedWrite :=
    ⟨_, .cons trivial rfl (.cons trivial rfl (.cons (Nat.le_refl 2) rfl (.cons trivial rfl
      (.cons trivial rfl (.cons trivial rfl (.cons trivial rfl (.cons trivial rfl
        (.cons trivial rfl (.nil _))))))))), rfl⟩
  obtain ⟨s, hrun, hclosed⟩ := hrun
  refine ⟨s, hrun, hclosed, ?_⟩
  obtain ⟨fs, gs, u, hsplit, hbefore, -, hiff⟩ := exec_delivers_iff hrun hclosed
  refine hiff.mpr ?_
  -- there is one `Wait` in the run, after the read
  have hfs : fs = [.childWrite .stdout [104, 105], .read .stdout 2, .write .stdout 2,
      .childExit] := by
    rcases fs with _ | ⟨a, _ | ⟨b, _ | ⟨c, _ | ⟨d, _ | ⟨e, fs⟩⟩⟩⟩⟩ <;> simp at hsplit ⊢
    · tauto
    have hmem : ExecEvent.wait ∈ fs ++ .wait :: gs := by simp
    rw [← hsplit.2.2.2.2.2] at hmem
    simp at hmem
  subst hfs
  rcases hbefore with _ | ⟨-, hwrite, _ | ⟨-, hread, _ | ⟨-, hsend, _ | ⟨-, hexit, _ | _⟩⟩⟩⟩
  cases hwrite
  cases hread
  cases hsend
  cases hexit
  intro p
  cases p <;> rfl

/-- The child writes two bytes and exits; `Wait` closes the pipe before it is read. -/
theorem output_lost : ∃ s,
    Run step Delivers {} [.childWrite .stdout [104, 105], .childExit, .wait, .readClosed .stdout,
      .readClosed .stderr, .outputGroupWait, .closeWrite] s ∧
    s.phase = .closedWrite ∧ s.written .stdout = [104, 105] ∧ s.sent .stdout = [] := by
  exact ⟨_, .cons trivial rfl (.cons trivial rfl (.cons trivial rfl (.cons trivial rfl
    (.cons trivial rfl (.cons trivial rfl (.cons trivial rfl (.nil _))))))), rfl, rfl, rfl⟩

end Example

end ExecState

end P2PNetcat.Session
