import Libweave.Commands.Instance

/-!
# Running method bodies, with and without re-entrant observers

A method body is run from the members `c` to an `Outcome`: its return value, the members at its
end, and the trace of the steps taken meanwhile (assignments, broadcasts, removal requests), each
tagged with the call whose body took it.

* `Prog.run` runs a body with observers that make no call back into the instance.
* `Prog.Sem nested` relates a body to each of its outcomes when, at every broadcast, the observers
  may take the members from `c` to `c'` with steps `t` whenever `nested c c' t`.
* `Run d` is a sequence of calls in which the observers of every broadcast may make calls again,
  nested at most `d` deep; handler code driving a command and the observers of one broadcast both
  make runs.  `Run 0` makes no call.

The main results are `Prog.sem_run`, by which the outcomes with observers that make no call are
exactly the one `run` computes, and `Run.induction`, which lifts a property of one call whose
observers' calls have it to every run, however deeply the calls are nested.
-/

namespace Libweave

variable {S : SchemaUtils} {α β : Type}

/-- One step of a method body. -/
inductive Event (S : SchemaUtils) where
  /-- Members were assigned; these are the members after the assignment. -/
  | assign (after : CommandInstance S)
  /-- A notification was broadcast to the observers. -/
  | notify (n : Notification)
  /-- The owning queue was asked to remove the command with this ID. -/
  | delayedRemove (id : String)

/-- A step, with the call whose body took it and the members when it was taken. -/
structure Entry (S : SchemaUtils) where
  call : Call S
  state : CommandInstance S
  event : Event S

/-- The outcome of running a body: its return value, the members at its end, and its trace. -/
structure Outcome (S : SchemaUtils) (α : Type) where
  result : α
  state : CommandInstance S
  trace : List (Entry S)

namespace Outcome

/-- The outcome with steps `t` put before its trace. -/
def prepend (t : List (Entry S)) (o : Outcome S α) : Outcome S α :=
  { o with trace := t ++ o.trace }

@[simp] lemma prepend_result (t : List (Entry S)) (o : Outcome S α) :
    (o.prepend t).result = o.result := rfl

@[simp] lemma prepend_state (t : List (Entry S)) (o : Outcome S α) :
    (o.prepend t).state = o.state := rfl

@[simp] lemma prepend_trace (t : List (Entry S)) (o : Outcome S α) :
    (o.prepend t).trace = t ++ o.trace := rfl

@[simp] lemma prepend_nil (o : Outcome S α) : o.prepend [] = o := rfl

@[simp] lemma prepend_prepend (t t' : List (Entry S)) (o : Outcome S α) :
    (o.prepend t').prepend t = o.prepend (t ++ t') := by
  simp [prepend, List.append_assoc]

end Outcome

/-- The notifications broadcast along a trace, in order. -/
def notifications (t : List (Entry S)) : List Notification :=
  t.filterMap fun e => match e.event with
    | .notify n => some n
    | _ => none

section Notifications

variable {cl : Call S} {c a : CommandInstance S} {t t' : List (Entry S)}

@[simp] lemma notifications_nil : notifications ([] : List (Entry S)) = [] := rfl

@[simp] lemma notifications_append :
    notifications (t ++ t') = notifications t ++ notifications t' :=
  List.filterMap_append _ _ _

@[simp] lemma notifications_assign :
    notifications (⟨cl, c, .assign a⟩ :: t) = notifications t := rfl

@[simp] lemma notifications_notify {n : Notification} :
    notifications (⟨cl, c, .notify n⟩ :: t) = n :: notifications t := rfl

@[simp] lemma notifications_delayedRemove {id : String} :
    notifications (⟨cl, c, .delayedRemove id⟩ :: t) = notifications t := rfl

end Notifications

namespace Prog

/-- A body run with observers that make no call back into the instance. -/
def run (call : Call S) : Prog S α → CommandInstance S → Outcome S α
  | .ret a, c => ⟨a, c, []⟩
  | .read k, c => (k c).run call c
  | .update f k, c => (k.run call (f c)).prepend [⟨call, c, .assign (f c)⟩]
  | .notify n k, c => (k.run call c).prepend [⟨call, c, .notify n⟩]
  | .delayedRemove id k, c => (k.run call c).prepend [⟨call, c, .delayedRemove id⟩]

@[simp] lemma run_ret (call : Call S) (a : α) (c : CommandInstance S) :
    (Prog.ret a).run call c = ⟨a, c, []⟩ := rfl

/-- A body run with scripted observers: at a broadcast of `n` from the members `c`, the observers
take the members to `(observers c n).1` with the steps `(observers c n).2`. -/
def runWith (call : Call S)
    (observers : CommandInstance S → Notification → CommandInstance S × List (Entry S)) :
    Prog S α → CommandInstance S → Outcome S α
  | .ret a, c => ⟨a, c, []⟩
  | .read k, c => (k c).runWith call observers c
  | .update f k, c => (k.runWith call observers (f c)).prepend [⟨call, c, .assign (f c)⟩]
  | .notify n k, c =>
    (k.runWith call observers (observers c n).1).prepend (⟨call, c, .notify n⟩ :: (observers c n).2)
  | .delayedRemove id k, c => (k.runWith call observers c).prepend [⟨call, c, .delayedRemove id⟩]

/-- The outcomes of a body when the observers of each broadcast may make any change `nested`
allows. -/
def Sem (nested : CommandInstance S → CommandInstance S → List (Entry S) → Prop)
    (call : Call S) : Prog S α → CommandInstance S → Outcome S α → Prop
  | .ret a, c, o => o = ⟨a, c, []⟩
  | .read k, c, o => (k c).Sem nested call c o
  | .update f k, c, o =>
    ∃ o', k.Sem nested call (f c) o' ∧ o = o'.prepend [⟨call, c, .assign (f c)⟩]
  | .notify n k, c, o =>
    ∃ c' t o', nested c c' t ∧ k.Sem nested call c' o' ∧ o = o'.prepend (⟨call, c, .notify n⟩ :: t)
  | .delayedRemove id k, c, o =>
    ∃ o', k.Sem nested call c o' ∧ o = o'.prepend [⟨call, c, .delayedRemove id⟩]


end Prog

/-- A sequence of calls, each with an outcome `exec` allows, from `c` to `c'` with steps `t`. -/
inductive Calls (exec : Call S → CommandInstance S → Outcome S Reply → Prop) :
    CommandInstance S → CommandInstance S → List (Entry S) → Prop
  | nil (c : CommandInstance S) : Calls exec c c []
  | cons {cl : Call S} {c c' : CommandInstance S} {o : Outcome S Reply} {t : List (Entry S)} :
      exec cl c o → Calls exec o.state c' t → Calls exec c c' (o.trace ++ t)

/-- `Run d c c' t`: calls take the members from `c` to `c'` with steps `t`, the observers of each
broadcast making calls in turn, nested at most `d - 1` deep. -/
def Run : Nat → CommandInstance S → CommandInstance S → List (Entry S) → Prop
  | 0 => fun c c' t => c' = c ∧ t = []
  | d + 1 => Calls fun cl => cl.body.Sem (Run d) cl

namespace Call

/-- A call, its observers making no call back. -/
def run (cl : Call S) (c : CommandInstance S) : Outcome S Reply :=
  cl.body.run cl c

/-- The outcomes of a call when its observers make the changes `nested` allows. -/
def Exec (nested : CommandInstance S → CommandInstance S → List (Entry S) → Prop) (cl : Call S)
    (c : CommandInstance S) (o : Outcome S Reply) : Prop :=
  cl.body.Sem nested cl c o

end Call

@[simp] lemma run_zero {c c' : CommandInstance S} {t : List (Entry S)} :
    Run 0 c c' t ↔ c' = c ∧ t = [] := Iff.rfl

namespace Prog

/-- With observers that make no call, the one outcome of a body is the one `run` computes. -/
theorem sem_run {call : Call S} {p : Prog S α} {c : CommandInstance S} {o : Outcome S α} :
    p.Sem (Run 0) call c o ↔ o = p.run call c := by
  induction p generalizing c o with
  | ret a => rfl
  | read k ih => exact ih c
  | update f k ih => simp [Sem, run, ih]
  | notify n k ih =>
    simp only [Sem, run_zero, run, ih]
    constructor
    · rintro ⟨_, _, _, ⟨rfl, rfl⟩, rfl, rfl⟩
      rfl
    · rintro rfl
      exact ⟨c, [], _, ⟨rfl, rfl⟩, rfl, rfl⟩
  | delayedRemove id k ih => simp [Sem, run, ih]

end Prog

/-- Scripted observers whose changes `nested` allows give an outcome of the body. -/
lemma Prog.sem_runWith {nested : CommandInstance S → CommandInstance S → List (Entry S) → Prop}
    {call : Call S}
    {observers : CommandInstance S → Notification → CommandInstance S × List (Entry S)}
    (h : ∀ c n, nested c (observers c n).1 (observers c n).2) (p : Prog S α) (c : CommandInstance S) :
    p.Sem nested call c (p.runWith call observers c) := by
  induction p generalizing c with
  | ret a => rfl
  | read k ih => exact ih c c
  | update f k ih => exact ⟨_, ih (f c), rfl⟩
  | notify n k ih => exact ⟨_, _, _, h c n, ih _, rfl⟩
  | delayedRemove id k ih => exact ⟨_, ih c, rfl⟩

namespace Call

lemma exec_run (cl : Call S) (c : CommandInstance S) : cl.Exec (Run 0) c (cl.run c) :=
  Prog.sem_run.2 rfl

end Call

namespace Run

/-- One call whose observers make runs nested at most `d - 1` deep is a run nested at most `d`
deep. -/
lemma of_exec {d : Nat} {cl : Call S} {c : CommandInstance S} {o : Outcome S Reply}
    (h : cl.Exec (Run d) c o) : Run (d + 1) c o.state o.trace := by
  simpa using Calls.cons h (Calls.nil o.state)

/-- A property of stretches of runs holds of every run when it holds of the empty stretch, is
closed under concatenation, and holds of each call whose observers' calls have it. -/
theorem induction {P : CommandInstance S → CommandInstance S → List (Entry S) → Prop}
    (nil : ∀ c, P c c [])
    (append : ∀ {c₁ c₂ c₃ t₁ t₂}, P c₁ c₂ t₁ → P c₂ c₃ t₂ → P c₁ c₃ (t₁ ++ t₂))
    (call : ∀ {nested : CommandInstance S → CommandInstance S → List (Entry S) → Prop},
      (∀ {c c' t}, nested c c' t → P c c' t) →
      ∀ {cl : Call S} {c : CommandInstance S} {o : Outcome S Reply},
        cl.Exec nested c o → P c o.state o.trace) :
    ∀ {d c c' t}, Run d c c' t → P c c' t := by
  intro d
  induction d with
  | zero =>
    rintro _ _ _ ⟨rfl, rfl⟩
    exact nil _
  | succ d ih =>
    intro c c' t h
    induction h with
    | nil c => exact nil c
    | cons hcall _ ihrest => exact append (call ih hcall) ihrest

end Run

end Libweave
