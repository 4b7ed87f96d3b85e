import Mathlib.Computability.Language
import RemoteDebugger.Proofs.Session.Notice

/-!
# The protocol of notifications

A thread is announced, stops and goes on any number of times, and is announced as gone; then a
thread with its identifier may appear again. A stop for an exception comes with the exception before
it, and when the thread goes on, with the end of the exception after it. A stopped thread may be
told to jump, which is announced as if it went on and stopped again.

`Phase.Tells` gives these rules one notice at a time, and `Story` is the grammar of the stories that
lead to a phase. A story may break off between two notices that belong together, so there are phases
for what is still to be told. Of a story, the four notifications that every stop has form a prefix
of a word of the regular language `lifecycle`.
-/

namespace RemoteDebugger

/-- What a thread is doing, as its story tells. The stories that lead to a phase are given by
`Story`. -/
inductive Phase where
  | absent
  | running
  /-- An exception has been announced, and the stop for it is next. -/
  | raised
  /-- Stopped, perhaps for an exception. -/
  | stopped (exceptional : Bool)
  /-- In the middle of a jump: the thread is announced as stopped again next. -/
  | jumping (exceptional : Bool)
  /-- Running again, with the end of an exception still to be announced. -/
  | leaving
  deriving DecidableEq, Repr

/-- The reasons that stand for a stop for an exception. -/
def exceptionReasons : List Wire.Command :=
  [StopReason.caughtException.command, StopReason.uncaughtException.command]

/-- What may be told of a thread in a phase, and the phase that this leads to. -/
inductive Phase.Tells : Phase → Notice → Phase → Prop
  | create : Tells .absent .created .running
  /-- A stop for no exception. -/
  | stop {why : Wire.Command} (plain : why ∉ exceptionReasons) (fresh : why ≠ .setNextStatement) :
      Tells .running (.suspended why) (.stopped false)
  | raise : Tells .running .raised .raised
  | stopRaised {why : Wire.Command} (because : why ∈ exceptionReasons) :
      Tells .raised (.suspended why) (.stopped true)
  /-- A jump of a stopped thread, and the stop after it. -/
  | jump {exceptional : Bool} : Tells (.stopped exceptional) .ran (.jumping exceptional)
  | jumped {exceptional : Bool} :
      Tells (.jumping exceptional) (.suspended .setNextStatement) (.stopped exceptional)
  | go : Tells (.stopped false) .ran .running
  /-- The end of a stop for an exception, which is told in two notices. -/
  | leave : Tells (.stopped true) .ran .leaving
  | proceed : Tells .leaving .proceeded .running
  | kill : Tells .running .killed .absent

inductive Story : Phase → List Notice → Prop
  | nothing : Story .absent []
  | tell {p p' : Phase} {w : List Notice} {n : Notice} (h : Story p w) (next : p.Tells n p') :
      Story p' (w ++ [n])

/-- The notifications that every stop has. -/
inductive Turn where
  | create
  | suspend
  | run
  | kill
  deriving DecidableEq, Repr

def Notice.turn? : Notice → Option Turn
  | created => some .create
  | suspended _ => some .suspend
  | ran => some .run
  | killed => some .kill
  | raised | proceeded => none

namespace Story

open Computability

/-- Stops of a thread, each with its end. -/
def stops : Language Turn := ({[.suspend]} * {[.run]})∗

/-- The lives of the threads with one identifier. -/
def lifecycle : Language Turn := ({[.create]} * stops * {[.kill]})∗

def turns : Phase → Language Turn
  | .absent => lifecycle
  | .running | .raised | .jumping _ | .leaving => lifecycle * {[.create]} * stops
  | .stopped _ => lifecycle * {[.create]} * stops * {[.suspend]}

/-- What may be repeated may be repeated once more. -/
theorem append_mem_kstar {l : Language Turn} {v w : List Turn} (hv : v ∈ l∗) (hw : w ∈ l) :
    v ++ w ∈ l∗ := by
  obtain ⟨parts, rfl, mine⟩ := Language.mem_kstar.mp hv
  refine Language.mem_kstar.mpr ⟨parts ++ [w], by simp, ?_⟩
  intro part member
  rcases List.mem_append.mp member with before | last
  · exact mine part before
  · obtain rfl := List.mem_singleton.mp last
    exact hw

/-- A stop and its end after the stops of a running thread. -/
theorem append_run {v : List Turn} {exceptional : Bool} (h : v ∈ turns (.stopped exceptional)) :
    v ++ [.run] ∈ turns .running := by
  obtain ⟨u, begun, w, rfl, rfl⟩ := Language.mem_mul.mp h
  obtain ⟨a, life, b, stopped, rfl⟩ := Language.mem_mul.mp begun
  rw [List.append_assoc, List.append_assoc]
  have stop : [.suspend, .run] ∈ ({[.suspend]} * {[.run]} : Language Turn) :=
    Language.mem_mul.mpr ⟨_, rfl, _, rfl, rfl⟩
  exact Language.mem_mul.mpr ⟨a, life, b ++ [.suspend, .run], append_mem_kstar stopped stop, rfl⟩

theorem append_suspend {v : List Turn} (h : v ∈ turns .running) (exceptional : Bool) :
    v ++ [.suspend] ∈ turns (.stopped exceptional) :=
  Language.append_mem_mul h rfl

/-- A thread that is not there may be created, whatever its turns were before. -/
theorem append_create {v : List Turn} (h : v ∈ turns .absent) :
    v ++ [.create] ∈ turns .running := by
  have begun : v ++ [.create] ∈ lifecycle * {[.create]} := Language.append_mem_mul h rfl
  have running := Language.append_mem_mul begun (Language.nil_mem_kstar ({[.suspend]} * {[.run]}))
  rwa [List.append_nil] at running

/-- A thread that runs may exit, and may be created anew after that. -/
theorem append_kill {v : List Turn} (h : v ∈ turns .running) : v ++ [.kill] ∈ turns .absent := by
  obtain ⟨u, begun, w, stopped, rfl⟩ := Language.mem_mul.mp h
  obtain ⟨a, life, b, rfl, rfl⟩ := Language.mem_mul.mp begun
  rw [List.append_assoc, List.append_assoc]
  refine append_mem_kstar life ?_
  rw [← List.append_assoc]
  exact Language.append_mem_mul (Language.append_mem_mul rfl stopped) rfl

/-- The turns of a story that leads to a phase. -/
theorem turns_mem {phase : Phase} {w : List Notice} (h : Story phase w) :
    w.filterMap Notice.turn? ∈ turns phase := by
  induction h with
  | nothing => exact Language.nil_mem_kstar _
  | tell _ next ih =>
      rw [List.filterMap_append]
      cases next with
      | create => exact append_create ih
      | stop | stopRaised | jumped => exact append_suspend ih true
      | jump | go | leave => exact append_run ih
      | kill => exact append_kill ih
      | raise | proceed =>
          show _ ++ [] ∈ _
          rwa [List.append_nil]

/-- The turns of a story can be completed to whole lives: a thread that is stopped may go on, and
one that is running may be gone next. -/
theorem turns_complete {phase : Phase} {w : List Notice} (h : Story phase w) :
    ∃ rest, w.filterMap Notice.turn? ++ rest ∈ lifecycle := by
  have mine := h.turns_mem
  cases phase with
  | absent =>
      refine ⟨[], ?_⟩
      rw [List.append_nil]
      exact mine
  | running | raised | jumping | leaving => exact ⟨[.kill], append_kill mine⟩
  | stopped exceptional =>
      have life := append_kill (append_run mine)
      rw [List.append_assoc] at life
      exact ⟨[.run, .kill], life⟩

end Story

end RemoteDebugger
