import Automation.Proofs.Halt
import Automation.Proofs.Pending
/-! What a dispatcher owes to the tasks of a batch. Every enabled task that it began a dispatch with
is yet to be sent off, in flight, reported, or left to wait; and the runs it keeps parked are those
of such tasks, each of them at a wait. -/
namespace Automation

def enabledKeys (rows : List (TaskKey × Task)) : List TaskKey :=
  (rows.filter fun row => row.2.metadata.enabled).map Prod.fst

theorem enabledAppend (first second : List (TaskKey × Task)) :
    enabledKeys (first ++ second) = enabledKeys first ++ enabledKeys second := by simp [enabledKeys]

theorem enabledOn {row : TaskKey × Task} (on : row.2.metadata.enabled = true)
    (rows : List (TaskKey × Task)) : enabledKeys (row :: rows) = row.1 :: enabledKeys rows := by
  simp [enabledKeys, on]

theorem enabledOff {row : TaskKey × Task} (off : row.2.metadata.enabled = false)
    (rows : List (TaskKey × Task)) : enabledKeys (row :: rows) = enabledKeys rows := by
  simp [enabledKeys, off]

theorem memEnabled {key : TaskKey} {rows : List (TaskKey × Task)} :
    key ∈ enabledKeys rows ↔ ∃ task, (key, task) ∈ rows ∧ task.metadata.enabled = true := by
  simp [enabledKeys]

namespace Dispatcher

structure Has (d : Dispatcher) (key : TaskKey) (task : Task) : Prop where
  registered : d.tasks.get? key = some task
  enabled : task.metadata.enabled = true

structure Owns (d : Dispatcher) (key : TaskKey) (run : Run) : Prop where
  has : d.Has key run.task
  waits : run.waitsFor?.isSome = true

end Dispatcher

namespace Report

def Sorted (runs : List TaskRun) : Prop := runs.Pairwise fun a b => a.key.number < b.key.number

theorem placeSorted {run : TaskRun} {runs : List TaskRun} (sorted : Sorted runs)
    (fresh : ∀ r ∈ runs, r.key ≠ run.key) : Sorted (place run runs) := by
  induction runs with
  | nil => exact List.pairwise_singleton _ _
  | cons other rest ih =>
    obtain ⟨first, later⟩ := List.pairwise_cons.mp sorted
    obtain ⟨apart, fresh⟩ := List.forall_mem_cons.mp fresh
    unfold place
    split
    · rename_i less
      refine List.pairwise_cons.mpr ⟨fun r inside => ?_, sorted⟩
      rcases List.mem_cons.mp inside with rfl | inside
      · exact less
      · exact Nat.lt_trans less (first r inside)
    · rename_i more
      refine List.pairwise_cons.mpr ⟨fun r inside => ?_, ih later fresh⟩
      rcases List.mem_cons.mp ((Sky.placeKeys run rest).mem_iff.mp inside) with rfl | inside
      · have differ : other.key.number ≠ r.key.number :=
          fun same => apart (congrArg TaskKey.mk same)
        omega
      · exact first r inside

def count (status : RunStatus) (runs : List TaskRun) : Nat :=
  runs.countP fun r => r.status == status

theorem placeCount (status : RunStatus) (run : TaskRun) (runs : List TaskRun) :
    count status (place run runs) = count status runs + if run.status = status then 1 else 0 := by
  rw [count, (Sky.placeKeys run runs).countP_eq, List.countP_cons]
  simp [count]

end Report

/- What is on record of a dispatch of the batch that began with `d₀`. These tasks are left to wait,
and everything may be halted on the way or not. -/
structure Books (may : Prop) (d₀ : Dispatcher) (batch : Batch) (d : Dispatcher)
    (todo : List (TaskKey × Task)) (flights : List Flight) (runs : List TaskRun)
    (waiting : List TaskKey) : Prop where
  tasks : d.tasks = d₀.tasks
  nextKey : d.nextKey = d₀.nextKey
  maxParked : d.maxParked = d₀.maxParked
  inFlight : ∀ key ∈ d.inFlight.keys, key ∈ flights.map Flight.key
  fingerprints : ∀ key ∈ d.fingerprints.keys, key ∈ d₀.tasks.keys
  room : d.parked.size ≤ d.maxParked
  parked : ∀ key run, d.parked.get? key = some run → d₀.Owns key run
  away : ∀ f ∈ flights, d.parked.get? f.key = none
  known : ∀ row ∈ todo, row ∈ d₀.tasks.rows
  todoOnce : (todo.map Prod.fst).Nodup
  early : ∀ row ∈ todo, ∀ run, d.parked.get? row.1 = some run → d₀.parked.get? row.1 = some run
  told : (enabledKeys todo ++ flights.map Flight.key ++ runs.map TaskRun.key ++ waiting).Perm
    (enabledKeys d₀.tasks.rows)
  waits : ∀ key ∈ waiting, ∃ run, d₀.parked.get? key = some run ∧
    run.qualifies batch.events = false
  sorted : Report.Sorted runs
  counted : ¬may → d.parked.size = todo.countP (fun row => d.parked.contains row.1) +
    waiting.length + Report.count .parked runs

namespace Books
variable {may : Prop} {d₀ d : Dispatcher} {batch : Batch} {todo : List (TaskKey × Task)}
  {flights : List Flight} {runs : List TaskRun} {waiting : List TaskKey}

theorem perm (books : Books may d₀ batch d todo flights runs waiting) {flights' : List Flight}
    (perm : flights.Perm flights') : Books may d₀ batch d todo flights' runs waiting :=
  { books with
    inFlight := fun key inside => (perm.map Flight.key).mem_iff.mp (books.inFlight key inside)
    away := fun f inside => books.away f (perm.mem_iff.mpr inside)
    told := ((((perm.map Flight.key).append_left _).append_right _).append_right _).symm.trans
      books.told }

theorem world (books : Books may d₀ batch d todo flights runs waiting) (w : World) :
    Books may d₀ batch { d with world := w } todo flights runs waiting := { books with }

theorem halt (books : Books may d₀ batch d todo flights runs waiting) (halts : may) :
    Books may d₀ batch d.haltAll.2 todo flights runs waiting := by
  obtain ⟨cancels, all, same⟩ := d.haltAllCancels
  rw [same]
  exact { books with
    room := Nat.zero_le _
    parked := fun key run absurd => nomatch absurd
    away := fun f inside => rfl
    early := fun row inside run absurd => nomatch absurd
    counted := fun never => absurd halts never }

theorem keysOnce (books : Books may d₀ batch d todo flights runs waiting) :
    (enabledKeys todo ++ flights.map Flight.key ++ runs.map TaskRun.key ++ waiting).Nodup :=
  books.told.nodup_iff.mpr (d₀.tasks.filterUnique _)

theorem flightHas {f : Flight} (books : Books may d₀ batch d todo (f :: flights) runs waiting) :
    ∃ task, d₀.Has f.key task := by
  have told : f.key ∈ enabledKeys d₀.tasks.rows := books.told.mem_iff.mp (by simp)
  obtain ⟨task, row, on⟩ := memEnabled.mp told
  exact ⟨task, Table.rowGet row, on⟩

theorem flightApart {f : Flight} (books : Books may d₀ batch d todo (f :: flights) runs waiting) :
    (∀ row ∈ todo, row.1 ≠ f.key) ∧ (∀ g ∈ flights, g.key ≠ f.key) ∧
      ∀ r ∈ runs, r.key ≠ f.key := by
  have once := List.nodup_iff_count.mp books.keysOnce f.key
  simp only [List.count_append, List.map_cons, List.count_cons, beq_self_eq_true, if_true] at once
  have apart {keys : List TaskKey} (none : keys.count f.key = 0) (key : TaskKey)
      (inside : key ∈ keys) : key ≠ f.key := fun same =>
    List.count_eq_zero.mp none (same ▸ inside)
  refine ⟨fun row inside same => ?_, fun g inside => ?_, fun r inside => ?_⟩
  · obtain ⟨task, has⟩ := books.flightHas
    have registered := Table.rowGet (books.known row inside)
    rw [same, has.registered] at registered
    have enabled : row.1 ∈ enabledKeys todo :=
      memEnabled.mpr ⟨row.2, inside, Option.some.inj registered ▸ has.enabled⟩
    exact apart (by omega) row.1 enabled same
  · exact apart (by omega) g.key (List.mem_map_of_mem inside)
  · exact apart (by omega) r.key (List.mem_map_of_mem inside)

section
variable {row : TaskKey × Task} {before after : List (TaskKey × Task)}

theorem todoApart (books : Books may d₀ batch d (before ++ row :: after) flights runs waiting) :
    ∀ other ∈ before ++ after, row.1 ≠ other.1 := by
  intro other inside same
  have once := books.todoOnce
  rw [List.map_append, List.map_cons] at once
  have absent := (List.nodup_cons.mp (List.nodup_middle.mp once)).1
  rw [← List.map_append] at absent
  exact absent (same ▸ List.mem_map_of_mem inside)

theorem todoLess (books : Books may d₀ batch d (before ++ row :: after) flights runs waiting) :
    ((before ++ after).map Prod.fst).Nodup := by
  have fewer : (before ++ after).Sublist (before ++ row :: after) :=
    (List.sublist_cons_self row after).append_left before
  exact (fewer.map Prod.fst).nodup books.todoOnce

theorem passOver (books : Books may d₀ batch d (before ++ row :: after) flights runs waiting)
    (off : row.2.metadata.enabled = false) :
    Books may d₀ batch d (before ++ after) flights runs waiting := by
  have empty : d.parked.get? row.1 = none := by
    cases parked : d.parked.get? row.1 with
    | none => rfl
    | some run =>
      have has := (books.parked row.1 run parked).has
      have registered := Table.rowGet (books.known row (by simp))
      rw [has.registered] at registered
      rw [← Option.some.inj registered, has.enabled] at off
      cases off
  refine { books with
    known := fun other inside => books.known other (othersAmong rfl inside)
    todoOnce := books.todoLess
    early := fun other inside => books.early other (othersAmong rfl inside)
    told := ?_
    counted := fun never => ?_ }
  · have told := books.told
    rwa [enabledAppend, enabledOff off, ← enabledAppend] at told
  · rw [books.counted never, List.countP_append, List.countP_append, List.countP_cons,
      Table.contains, empty]
    simp

theorem leaveWaiting (books : Books may d₀ batch d (before ++ row :: after) flights runs waiting)
    (on : row.2.metadata.enabled = true) {run : Run} (parked : d.parked.get? row.1 = some run)
    (refuse : run.qualifies batch.events = false) :
    Books may d₀ batch d (before ++ after) flights runs (row.1 :: waiting) := by
  refine { books with
    known := fun other inside => books.known other (othersAmong rfl inside)
    todoOnce := books.todoLess
    early := fun other inside => books.early other (othersAmong rfl inside)
    told := (List.perm_iff_count.mpr fun key => ?_).trans books.told
    waits := List.forall_mem_cons.mpr
      ⟨⟨run, books.early row (by simp) run parked, refuse⟩, books.waits⟩
    counted := fun never => ?_ }
  · simp only [enabledAppend, enabledOn on, List.count_append, List.count_cons]
    omega
  · rw [books.counted never, List.countP_append, List.countP_append, List.countP_cons,
      Table.contains, parked, List.length_cons]
    simp only [Option.isSome_some, if_true]
    omega

theorem board (books : Books may d₀ batch d (before ++ row :: after) flights runs waiting)
    (on : row.2.metadata.enabled = true) {f : Flight} (key : f.key = row.1) :
    Books may d₀ batch
      { d with
        parked := d.parked.erase f.key
        inFlight := d.inFlight.insert f.key f.handle }
      (before ++ after) (f :: flights) runs waiting := by
  refine { books with
    inFlight := fun k inside => ?_
    room := Nat.le_trans (Table.eraseSizeLe _ _) books.room
    parked := fun k run found => books.parked k run (Table.eraseFound found).2
    away := List.forall_mem_cons.mpr ⟨?_, fun g inside => ?_⟩
    known := fun other inside => books.known other (othersAmong rfl inside)
    todoOnce := books.todoLess
    early := fun other inside run found =>
      books.early other (othersAmong rfl inside) run (Table.eraseFound found).2
    told := (List.perm_iff_count.mpr fun k => ?_).trans books.told
    counted := fun never => ?_ }
  · rcases Table.insertKey inside with rfl | old
    · exact List.mem_cons_self
    · exact List.mem_cons_of_mem _ (books.inFlight k old)
  · rw [Table.getErase, if_pos rfl]
  · rw [Table.getErase, books.away g inside, ite_self]
  · simp only [enabledAppend, enabledOn on, List.map_cons, key, List.count_append, List.count_cons]
    omega
  -- If a run is taken out for the task, both sides count one less.
  · have others : (before ++ after).countP (fun other => (d.parked.erase f.key).contains other.1) =
        (before ++ after).countP fun other => d.parked.contains other.1 := by
      refine List.countP_congr fun other inside => ?_
      rw [key, Table.containsErase (books.todoApart other inside)]
    have counted := books.counted never
    rw [List.countP_append, List.countP_cons] at counted
    rw [others, List.countP_append, key]
    cases parked : d.parked.get? row.1 with
    | none =>
      rw [Table.eraseAbsent parked, counted, Table.contains, parked]
      simp
    | some run =>
      have size := Table.eraseSize parked
      rw [Table.contains, parked, Option.isSome_some, if_pos rfl] at counted
      change (d.parked.erase row.1).size = _
      omega

end

section
variable {f : Flight} {r : TaskRun}

theorem reported (books : Books may d₀ batch d todo (f :: flights) runs waiting)
    (key : r.key = f.key) :
    (∀ k ∈ (d.inFlight.erase f.key).keys, k ∈ flights.map Flight.key) ∧
      (enabledKeys todo ++ flights.map Flight.key ++ (Report.place r runs).map TaskRun.key ++
        waiting).Perm (enabledKeys d₀.tasks.rows) ∧
      Report.Sorted (Report.place r runs) := by
  obtain ⟨-, -, fresh⟩ := books.flightApart
  refine ⟨fun k inside => ?_, (List.perm_iff_count.mpr fun k => ?_).trans books.told,
    Report.placeSorted books.sorted (by rwa [key])⟩
  · rcases List.mem_cons.mp (books.inFlight k (Table.eraseKey inside)) with same | old
    · exact absurd same (Table.eraseOther inside)
    · exact old
  · have placed := ((Sky.placeKeys r runs).map TaskRun.key).count_eq k
    rw [List.map_cons, key] at placed
    simp only [List.map_cons, List.count_append, List.count_cons, placed]
    omega

theorem leave (books : Books may d₀ batch d todo (f :: flights) runs waiting) (key : r.key = f.key)
    (moved : r.status ≠ .parked) :
    Books may d₀ batch { d with inFlight := d.inFlight.erase f.key } todo flights
      (Report.place r runs) waiting := by
  obtain ⟨inFlight, told, sorted⟩ := books.reported key
  refine { books with
    inFlight
    away := fun g inside => books.away g (List.mem_cons_of_mem f inside)
    told
    sorted
    counted := fun never => ?_ }
  rw [Report.placeCount, if_neg moved]
  exact books.counted never

theorem park (books : Books may d₀ batch d todo (f :: flights) runs waiting) (key : r.key = f.key)
    (parks : r.status = .parked) {run : Run} (owns : d₀.Owns f.key run)
    (space : d.parked.size < d.maxParked) :
    Books may d₀ batch
      { d with
        inFlight := d.inFlight.erase f.key
        parked := d.parked.insert f.key run }
      todo flights (Report.place r runs) waiting := by
  obtain ⟨inFlight, told, sorted⟩ := books.reported key
  obtain ⟨ahead, apart, -⟩ := books.flightApart
  have absent := books.away f List.mem_cons_self
  refine { books with
    inFlight
    room := ?_
    parked := fun k run' found => ?_
    away := fun g inside => ?_
    early := fun row inside run' found => ?_
    told
    sorted
    counted := fun never => ?_ }
  · rw [Table.insertSize absent]
    exact space
  · rcases Table.insertFound found with ⟨rfl, rfl⟩ | old
    · exact owns
    · exact books.parked k run' old
  · rw [Table.getInsert, if_neg (apart g inside).symm]
    exact books.away g (List.mem_cons_of_mem f inside)
  · rw [Table.getInsert, if_neg (ahead row inside).symm] at found
    exact books.early row inside run' found
  · have others : todo.countP (fun row => (d.parked.insert f.key run).contains row.1) =
        todo.countP fun row => d.parked.contains row.1 :=
      List.countP_congr fun row inside => by rw [Table.containsInsert (ahead row inside).symm]
    rw [Report.placeCount, if_pos parks, Table.insertSize absent, others, books.counted never]
    omega

theorem note (books : Books may d₀ batch d todo flights runs waiting) {k : TaskKey}
    (known : k ∈ d₀.tasks.keys) (fingerprint : UInt32) :
    Books may d₀ batch { d with fingerprints := d.fingerprints.insert k fingerprint } todo flights
      runs waiting :=
  { books with
    fingerprints := fun key inside => by
      rcases Table.insertKey inside with rfl | old
      · exact known
      · exact books.fingerprints key old }

end

end Books
end Automation
