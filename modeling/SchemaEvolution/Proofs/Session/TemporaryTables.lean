import Mathlib.Data.List.Induction
import SchemaEvolution.Dialect.NuoDb
import SchemaEvolution.Proofs.Support.Outcome
import SchemaEvolution.Session.Request

/-!
# `SchemaEvolution.Proofs.Session.TemporaryTables`: what a session remembers

Of everything that a session is asked, few requests are about its
temporary tables: a change that deploys or drops one, if it can be
written, and the direct notes. Each of these is a `TemporaryEvent`. What
a session remembers is what these events add up to, and of the events
about one name the latest decides.

* `Session.temporary_run`: a session has recorded its events, one by one.
* `TemporaryTables.mem_foldl_record_iff`: events that are recorded one by
  one leave what the latest of them says.
* `Session.remembers_latest`: both together, for a session that begins
  with nothing, and the requests that leave no trace.
-/

set_option autoImplicit false

namespace SchemaEvolution

/-! ### Events -/

/-- What happens to a temporary table, or is noted of it. -/
inductive TemporaryEvent where
  | deployed (name : String)
  | dropped (name : String)
  | registered (name : String)
  | unregistered (name : String)
deriving DecidableEq

namespace TemporaryEvent

/-- The exact name of the table that an event is about. -/
def name : TemporaryEvent → String
  | .deployed n | .dropped n | .registered n | .unregistered n => n

/-- Whether the table is there from then on. -/
def enters : TemporaryEvent → Bool
  | .deployed _ | .registered _ => true
  | .dropped _ | .unregistered _ => false

/-- The latest of the events about a name. -/
def latest? (events : List TemporaryEvent) (name : String) :
    Option TemporaryEvent :=
  events.reverse.find? fun e => e.name = name

/-- The last event comes before the others if it is about the name. -/
theorem latest?_concat (events : List TemporaryEvent) (e : TemporaryEvent)
    (name : String) :
    latest? (events ++ [e]) name =
      if e.name = name then some e else latest? events name := by
  unfold latest?
  rw [List.reverse_concat, List.find?_cons]
  by_cases h : e.name = name <;> simp [h]

end TemporaryEvent

/-- What a change does to a temporary table when it is made. -/
def SchemaChange.event? : SchemaChange → Option TemporaryEvent
  | .addTable t => if t.temporary then some (.deployed t.name) else none
  | .removeTable t => if t.temporary then some (.dropped t.name) else none
  | _ => none

/-- What a request does to a temporary table, given whether it is
answered with success. -/
def Request.event? (succeeds : Bool) : Request → Option TemporaryEvent
  | .ask _ => none
  | .change c => if succeeds then c.event? else none
  | .register n => some (.registered n)
  | .unregister n => some (.unregistered n)

namespace TemporaryTables

/-- The registry after an event. -/
def record (names : TemporaryTables) (e : TemporaryEvent) :
    TemporaryTables :=
  if e.enters then names.register e.name else names.unregister e.name

/-- An event decides about its name and no other. -/
theorem mem_record_iff {names : TemporaryTables} {e : TemporaryEvent}
    {name : String} :
    name ∈ names.record e ↔
      if e.name = name then e.enters = true else name ∈ names := by
  unfold record
  by_cases hname : e.name = name
  · subst hname
    cases e.enters <;> simp [mem_register, mem_unregister]
  · have hother : name ≠ e.name := fun h => hname h.symm
    cases e.enters <;> simp [mem_register, mem_unregister, hname, hother]

/-- Of the events about a name the latest decides, and without one
nothing changes. -/
theorem mem_foldl_record_iff {names : TemporaryTables}
    {events : List TemporaryEvent} {name : String} :
    name ∈ events.foldl record names ↔
      (TemporaryEvent.latest? events name).elim (name ∈ names)
        fun e => e.enters = true := by
  -- The latest event is the last one that is recorded.
  induction events using List.reverseRecOn with
  | nil => exact Iff.rfl
  | append_singleton events e ih =>
      rw [List.foldl_append, List.foldl_cons, List.foldl_nil,
        mem_record_iff, TemporaryEvent.latest?_concat]
      split
      · rfl
      · exact ih

end TemporaryTables

/-- What a session remembers of a change is its event. -/
theorem SchemaChange.remember_eq (c : SchemaChange)
    (names : TemporaryTables) :
    c.remember names = c.event?.toList.foldl .record names := by
  cases c with
  | addTable t =>
      cases h : t.temporary with
      | false => simp [remember, event?, h]
      | true => simp [remember, event?, h, TemporaryTables.record,
          TemporaryEvent.enters, TemporaryEvent.name]
  | removeTable t =>
      cases h : t.temporary with
      | false => simp [remember, event?, h]
      | true => simp [remember, event?, h, TemporaryTables.record,
          TemporaryEvent.enters, TemporaryEvent.name]
  | renameTable _ _ | addColumn _ _ | changeColumn _ _ _
  | removeColumn _ _ | addIndex _ _ | removeIndex _ _
  | renameIndex _ _ _ | changePrimaryKey _ _ _ | removeView _ => rfl

namespace Session

/-! ### Requests in a row -/

/-- The session after requests that are made one after the other. -/
def run (s : Session) : List Request → Session
  | [] => s
  | r :: rest => (s.answer r).2.run rest

/-- What the requests do to temporary tables, as they are answered. -/
def events (s : Session) : List Request → List TemporaryEvent
  | [] => []
  | r :: rest =>
      (r.event? (s.answer r).1.isOk).toList ++ (s.answer r).2.events rest

theorem run_append (s : Session) (xs ys : List Request) :
    s.run (xs ++ ys) = (s.run xs).run ys := by
  induction xs generalizing s with
  | nil => rfl
  | cons r rest ih => exact ih (s.answer r).2

/-- No request touches the target. -/
theorem answer_target (s : Session) (r : Request) :
    (s.answer r).2.target = s.target := by
  cases r with
  | ask q => rfl
  | change c => exact change_target s c
  | register n => rfl
  | unregister n => rfl

/-- A request is recorded by its event, if it is one. -/
theorem temporary_answer (s : Session) (r : Request) :
    (s.answer r).2.temporary =
      (r.event? (s.answer r).1.isOk).toList.foldl .record s.temporary := by
  cases r with
  | ask q => rfl
  | change c =>
      cases h : s.target.planChange c with
      | error e =>
          simp [answer, change, h, Request.event?, Except.map, Except.isOk,
            Except.toBool]
      | ok statements =>
          simp [answer, change, h, Request.event?, Except.map, Except.isOk,
            Except.toBool, SchemaChange.remember_eq]
  | register n => rfl
  | unregister n => rfl

/-- A session has recorded the events of its requests. -/
theorem temporary_run (s : Session) (requests : List Request) :
    (s.run requests).temporary =
      (s.events requests).foldl .record s.temporary := by
  induction requests generalizing s with
  | nil => rfl
  | cons r rest ih =>
      rw [run, events, ih, List.foldl_append, temporary_answer]

/-- A request that is no event leaves no trace. -/
theorem answer_of_event?_eq_none {s : Session} {r : Request}
    (silent : r.event? (s.answer r).1.isOk = none) :
    (s.answer r).2 = s := by
  have htarget := answer_target s r
  have htemporary := temporary_answer s r
  rw [silent] at htemporary
  cases h : (s.answer r).2
  rw [h] at htarget htemporary
  cases s
  cases htarget
  cases htemporary
  rfl

/-- A session that begins with nothing remembers a table when the latest
event about it was its deployment or a note that it is there. A request
that is no event changes nothing about how tables are referred to
afterwards. -/
theorem remembers_latest (target : Target) :
    let s : Session := { target := target }
    (∀ requests name, name ∈ (s.run requests).temporary ↔
      ∃ e, TemporaryEvent.latest? (s.events requests) name = some e ∧
        e.enters = true) ∧
    ∀ (before after : List Request) (r : Request),
      r.event? ((s.run before).answer r).1.isOk = none →
      ∀ ref, (s.run (before ++ r :: after)).qualifier ref =
        (s.run (before ++ after)).qualifier ref := by
  intro s
  constructor
  · intro requests name
    rw [temporary_run, TemporaryTables.mem_foldl_record_iff]
    cases TemporaryEvent.latest? (s.events requests) name with
    | none => simp [s, TemporaryTables.not_mem_empty]
    | some e => simp
  · intro before after r silent ref
    rw [run_append, run_append, run, answer_of_event?_eq_none silent]

end Session

/-! ### A session with a temporary table -/

/-- A temporary table. -/
def scratch : Table where
  name := "Scratch"
  columns := [{ name := "Code", type := .string, width := 3 }]
  temporary := true

/-- A temporary table that cannot be deployed, as its column has no
type. -/
def untyped : Table where
  name := "Untyped"
  columns := [{ name := "Code", type := .null }]
  temporary := true

/-- A table that is deployed is forgotten when it is dropped, one that
cannot be deployed is never remembered, and one that is noted stays.
References are as if nobody had tried to deploy the second. -/
theorem scratch_forgotten :
    let s : Session :=
      { target := { dialect := .nuoDb, config := { schemaName := "App" } } }
    let before : List Request := [.change (.addTable scratch)]
    let failed : Request := .change (.addTable untyped)
    let after : List Request :=
      [.ask (.statement (.select { source := some { name := "Scratch" } })),
        .register "Intake", .change (.removeTable scratch)]
    let last := s.run (before ++ failed :: after)
    "Intake" ∈ last.temporary ∧ "Scratch" ∉ last.temporary ∧
      "Untyped" ∉ last.temporary ∧
      ∀ ref,
        last.qualifier ref = (s.run (before ++ after)).qualifier ref := by
  intro s before failed after last
  obtain ⟨latest, silent⟩ := Session.remembers_latest s.target
  have hscratch : TemporaryEvent.latest?
      (s.events (before ++ failed :: after)) "Scratch" =
        some (.dropped "Scratch") := by
    decide +kernel
  have huntyped : TemporaryEvent.latest?
      (s.events (before ++ failed :: after)) "Untyped" = none := by
    decide +kernel
  refine ⟨(latest _ _).mpr ⟨.registered "Intake", by decide +kernel, rfl⟩,
    fun h => ?_, fun h => ?_, silent _ _ _ (by decide +kernel)⟩
  · obtain ⟨e, he, henters⟩ := (latest _ _).mp h
    cases hscratch.symm.trans he
    cases henters
  · obtain ⟨e, he, -⟩ := (latest _ _).mp h
    cases huntyped.symm.trans he

end SchemaEvolution
