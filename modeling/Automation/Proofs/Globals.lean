import Mathlib.Data.List.DropRight
import Automation.Proofs.Sessions
import Automation.Proofs.Table
/-! Globals as many share them. What is under a key is a matter of the accesses to it since it was
last taken away: the first request among them has made it, and all others see that. Runs access
globals by requests only, and in the turns of their calls they change them in no other way. -/
namespace Automation

namespace Registry
variable {τ : Type} {β : τ → Type}

inductive Access (β : τ → Type) where
  | obtain (key : UInt64) (type : τ) (make : Unit → β type)
  | read (key : UInt64) (type : τ)
  | contains (key : UInt64)
  | remove (key : UInt64)
  | clear
  | size

inductive Reply (β : τ → Type) where
  | value (type : τ) (found : Except RunError (β type))
  | stored (yes : Bool)
  | count (n : Nat)
  | done

def Fault.about (key : UInt64) : Fault → RunError
  | missing => .globalMissing key
  | otherType => .globalTypeMismatch key

namespace Access

def drops (key : UInt64) : Access β → Bool
  | remove k => k == key
  | clear => true
  | _ => false

def makes (key : UInt64) : Access β → Option (Cell β)
  | obtain k type make => if k = key then some ⟨type, make ()⟩ else none
  | _ => none

def concerns (key : UInt64) : Access β → Bool
  | obtain k _ _ | read k _ | contains k | remove k => k == key
  | clear => true
  | size => false

end Access

/- What the first request for a key has made since the key was last taken away. -/
def kept (history : List (Access β)) (key : UInt64) : Option (Cell β) :=
  (history.rtakeWhile fun access => !access.drops key).findSome? (Access.makes key)

inductive Answers (held : UInt64 → Option (Cell β)) : Access β → Reply β → Prop where
  | made {key type make} (absent : held key = none) :
      Answers held (.obtain key type make) (.value type (.ok (make ())))
  | obtained {key type make v} (there : held key = some ⟨type, v⟩) :
      Answers held (.obtain key type make) (.value type (.ok v))
  | obtainedOther {key type make c} (there : held key = some c) (other : c.type ≠ type) :
      Answers held (.obtain key type make) (.value type (.error (.globalTypeMismatch key)))
  | missing {key type} (absent : held key = none) :
      Answers held (.read key type) (.value type (.error (.globalMissing key)))
  | found {key type v} (there : held key = some ⟨type, v⟩) :
      Answers held (.read key type) (.value type (.ok v))
  | foundOther {key type c} (there : held key = some c) (other : c.type ≠ type) :
      Answers held (.read key type) (.value type (.error (.globalTypeMismatch key)))
  | contains (key) : Answers held (.contains key) (.stored (held key).isSome)
  | removed (key) : Answers held (.remove key) (.stored (held key).isSome)
  | cleared : Answers held .clear .done
  | counted {keys : List UInt64} (once : keys.Nodup)
      (all : ∀ key, key ∈ keys ↔ (held key).isSome = true) :
      Answers held .size (.count keys.length)

inductive Idle (held : UInt64 → Option (Cell β)) : Access β → Prop where
  | obtain {key type make} (there : held key ≠ none) : Idle held (.obtain key type make)
  | read (key type) : Idle held (.read key type)
  | contains (key) : Idle held (.contains key)
  | remove {key} (absent : held key = none) : Idle held (.remove key)
  | size : Idle held .size

theorem keptNext (history : List (Access β)) (access : Access β) (key : UInt64) :
    kept (history ++ [access]) key =
      if access.drops key then none else (kept history key).or (access.makes key) := by
  cases dropped : access.drops key with
  | true =>
    rw [kept, List.rtakeWhile_concat_neg _ _ _ (by simp [dropped])]
    rfl
  | false =>
    rw [kept, List.rtakeWhile_concat_pos _ _ _ (by simp [dropped]), List.findSome?_append,
      List.findSome?_singleton]
    rfl

theorem keptConcerned (history : List (Access β)) (key : UInt64) :
    kept (history.filter (Access.concerns key)) key = kept history key := by
  induction history using List.reverseRecOn with
  | nil => rfl
  | append_singleton history access ih =>
    rw [List.filter_append, keptNext, ← ih]
    cases concerned : access.concerns key with
    | true => rw [List.filter_cons_of_pos concerned, List.filter_nil, keptNext]
    | false =>
      have dropless : access.drops key = false := by
        cases access <;> simp_all [Access.concerns, Access.drops]
      have makeless : access.makes key = none := by
        cases access <;> simp_all [Access.concerns, Access.makes]
      rw [List.filter_cons_of_neg (by simp [concerned]), List.filter_nil, dropless, makeless]
      simp

variable [DecidableEq τ]

def serve (r : Registry UInt64 β) : Access β → Reply β × Registry UInt64 β
  | .obtain key type make =>
    let (found, r) := r.getOrInit key type make
    (.value type (found.mapError (Fault.about key)), r)
  | .read key type => (.value type ((r.get key type).mapError (Fault.about key)), r)
  | .contains key => (.stored (r.contains key), r)
  | .remove key =>
    let (was, r) := r.remove key
    (.stored was, r)
  | .clear => (.done, r.clear)
  | .size => (.count r.size, r)

def serveAll (r : Registry UInt64 β) (accesses : List (Access β)) : Registry UInt64 β :=
  accesses.foldl (fun r access => (r.serve access).2) r

def after (history : List (Access β)) : Registry UInt64 β := serveAll empty history

variable {r : Registry UInt64 β} {history : List (Access β)} {key : UInt64} {type : τ}

theorem serveAllAppend (r : Registry UInt64 β) (accesses later : List (Access β)) :
    r.serveAll (accesses ++ later) = (r.serveAll accesses).serveAll later :=
  List.foldl_append

theorem afterNext (history : List (Access β)) (access : Access β) :
    after (history ++ [access]) = ((after history).serve access).2 :=
  serveAllAppend empty history [access]

theorem readAsSame (c : Cell β) (same : c.type = type) : readAs c type = .ok (same ▸ c.value) := by
  subst same
  rw [readAs, Cell.asSelf]

theorem readAsOther (c : Cell β) (other : c.type ≠ type) : readAs c type = .error .otherType := by
  rw [readAs, Cell.asOther c.value other]

theorem obtainThere {c : Cell β} (there : r.cells.get? key = some c) (make : Unit → β type) :
    r.getOrInit key type make = (readAs c type, r) := by
  rw [getOrInit, there]

theorem obtainAbsent (absent : r.cells.get? key = none) (make : Unit → β type) :
    r.getOrInit key type make = (.ok (make ()), ⟨r.cells.insert key ⟨type, make ()⟩⟩) := by
  rw [getOrInit, absent]

theorem serveGet (r : Registry UInt64 β) (access : Access β) (key : UInt64) :
    (r.serve access).2.cells.get? key =
      if access.drops key then none else (r.cells.get? key).or (access.makes key) := by
  cases access with
  | obtain k type make =>
    cases found : r.cells.get? k with
    | some c =>
      rw [serve, obtainThere found]
      by_cases same : k = key
      · subst same
        simp [Access.drops, found]
      · simp [Access.drops, Access.makes, same]
    | none =>
      rw [serve, obtainAbsent found]
      simp only [Table.getInsert, Access.drops, Access.makes]
      by_cases same : k = key
      · subst same
        simp [found]
      · simp [same]
  | remove k => simp [serve, Registry.remove, Table.getErase, Access.drops, Access.makes]
  | clear => rfl
  | read k type | contains k | size => simp [serve, Access.drops, Access.makes]

theorem afterGet (history : List (Access β)) : (after history).cells.get? = kept history := by
  funext key
  induction history using List.reverseRecOn with
  | nil => rfl
  | append_singleton history access ih => rw [afterNext, serveGet, ih, keptNext]

theorem serveAnswers (access : Access β) :
    Answers r.cells.get? access (r.serve access).1 := by
  cases access with
  | obtain key type make =>
    cases found : r.cells.get? key with
    | none =>
      rw [serve, obtainAbsent found]
      exact .made found
    | some c =>
      rw [serve, obtainThere found]
      by_cases same : c.type = type
      · subst same
        rw [readAsSame c rfl]
        exact .obtained found
      · rw [readAsOther c same]
        exact .obtainedOther found same
  | read key type =>
    cases found : r.cells.get? key with
    | none =>
      rw [serve, get, found]
      exact .missing found
    | some c =>
      rw [serve, get, found]
      by_cases same : c.type = type
      · subst same
        simp only [readAsSame c rfl]
        exact .found found
      · simp only [readAsOther c same]
        exact .foundOther found same
  | contains key => exact .contains key
  | remove key => exact .removed key
  | clear => exact .cleared
  | size =>
    have all (key : UInt64) : key ∈ r.cells.keys ↔ (r.cells.get? key).isSome = true := by
      rw [Option.isSome_iff_exists]
      refine ⟨Table.keyGet, ?_⟩
      rintro ⟨c, found⟩
      exact Table.getKey found
    have counted := Answers.counted r.cells.unique all
    rwa [List.length_map] at counted

theorem serveIdle {access : Access β} (idle : Idle r.cells.get? access) :
    (r.serve access).2 = r := by
  cases idle with
  | obtain there =>
    obtain ⟨c, found⟩ := Option.ne_none_iff_exists'.mp there
    rw [serve, obtainThere found]
  | remove absent =>
    exact congrArg Registry.mk (Table.eraseAbsent absent)
  | read key type | contains key | size => rfl

theorem serveLazy (there : r.cells.get? key ≠ none) (make make' : Unit → β type) :
    r.serve (.obtain key type make) = r.serve (.obtain key type make') := by
  obtain ⟨c, found⟩ := Option.ne_none_iff_exists'.mp there
  rw [serve, serve, obtainThere found, obtainThere found]

end Registry

namespace Globals

theorem obtainServed (gs : Globals) (key : UInt64) (type : Stored) (init : Unit → type.Value) :
    gs.serve (.obtain key type init) =
      (.value type (gs.obtain key type init).1, (gs.obtain key type init).2) := by
  cases found : gs.cells.get? key with
  | none =>
    rw [Registry.serve, obtain, Registry.obtainAbsent found]
    rfl
  | some c =>
    rw [Registry.serve, obtain, Registry.obtainThere found]
    by_cases same : c.type = type
    · rw [Registry.readAsSame c same]
      rfl
    · rw [Registry.readAsOther c same]
      rfl

theorem readServed (gs : Globals) (key : UInt64) (type : Stored) :
    gs.serve (.read key type) = (.value type (gs.read key type), gs) := by
  rw [Registry.serve, read]
  cases gs.get key type with
  | ok v => rfl
  | error fault => cases fault <;> rfl

end Globals

namespace Scene
open Registry (Access)

def Requests (s t : Scene) : Prop :=
  ∃ requests : List (Access Stored.Value),
    (∀ request ∈ requests, ∃ key type init, request = .obtain key type init) ∧
      t.world.globals = s.world.globals.serveAll requests

variable {s t u : Scene}

theorem requestsSame (same : t.world.globals = s.world.globals) : s.Requests t :=
  ⟨[], fun _ inside => (nomatch inside), same⟩

theorem requestsFrame (same : t.frame = s.frame) : s.Requests t :=
  requestsSame (congrArg Frame.globals same)

theorem requestsTrans (s t u : Scene) (first : s.Requests t) (second : t.Requests u) :
    s.Requests u := by
  obtain ⟨requests, only, globals⟩ := first
  obtain ⟨requests', only', globals'⟩ := second
  refine ⟨requests ++ requests', List.forall_mem_append.mpr ⟨only, only'⟩, ?_⟩
  rw [globals', globals, Registry.serveAllAppend]

theorem obligesRequests {allowed : Demand → Prop} (s t : Scene) (obliges : s.Obliges allowed t) :
    s.Requests t := by
  cases obliges with
  | cancel handle demand | argument arguments => exact requestsSame rfl
  | global key type init demand =>
    have served := s.world.globals.obtainServed key type init
    exact ⟨[.obtain key type init], List.forall_mem_singleton.mpr ⟨key, type, init, rfl⟩,
      (congrArg Prod.snd served).symm⟩

end Scene

namespace Walk
variable {α : Type}

theorem performServed (key : UInt64) (type : Stored) (init : Unit → type.Value)
    (next : Except RunError type.Value → Script α) (s : Scene) :
    ∃ found globals, s.world.globals.serve (.obtain key type init) = (.value type found, globals) ∧
      perform (.global key type init next) s =
        perform (next found) { s with world := { s.world with globals } } :=
  ⟨_, _, Globals.obtainServed s.world.globals key type init, rfl⟩

theorem builtRequests {allowed : Demand → Prop} {w : Walk α} (built : Built allowed w) (s : Scene) :
    (w s).Guarantees Scene.Requests s :=
  builtGuarantees Scene.requestsTrans (fun _ => Scene.requestsSame rfl)
    (fun step s => Scene.requestsFrame (Scene.changeFrame step s))
    (fun step s => Scene.requestsFrame (Scene.actFrame step s)) Scene.obligesRequests built s

end Walk

theorem Errand.walkRequests (call : Errand) (s : Scene) :
    (call.walk s).Guarantees Scene.Requests s :=
  call.walkGuarantees Scene.requestsTrans (fun _ => Scene.requestsSame rfl)
    (fun path a s => Walk.builtRequests (Walk.visitBuilt a.onlyAnything .aggregate path) s)
    (fun _ => Scene.requestsSame rfl) s

namespace Registry

/- Whatever accesses have been made, of whatever types, every key holds what the first request for it
has made since it was last taken away, and every access is answered from that. A request for a key
that holds something makes nothing; that and an access that only looks, or removes nothing, leaves
everything as it is; and what a key holds depends on the accesses to it only. Globals are such a
registry, and a run's executors make requests of them and are answered likewise. -/
theorem firstWriterWins :
    (∀ {τ : Type} [DecidableEq τ] {β : τ → Type} (history : List (Access β)),
      (after history).cells.get? = kept history ∧
        (∀ access, Answers (kept history) access ((after history).serve access).1) ∧
        (∀ key type make make', kept history key ≠ none →
          (after history).serve (.obtain key type make) =
            (after history).serve (.obtain key type make')) ∧
        (∀ access, Idle (kept history) access → after (history ++ [access]) = after history) ∧
        ∀ key, kept (history.filter (Access.concerns key)) key = kept history key) ∧
      (∀ (gs : Globals) key type init,
        gs.serve (.obtain key type init) =
            (.value type (gs.obtain key type init).1, (gs.obtain key type init).2) ∧
          gs.serve (.read key type) = (.value type (gs.read key type), gs)) ∧
      (∀ (history : List (Access Stored.Value)) {α : Type} (s : Scene) key type init
        (next : Except RunError type.Value → Script α), s.world.globals = after history →
          ∃ found, Answers (kept history) (.obtain key type init) (.value type found) ∧
            Walk.perform (.global key type init next) s =
              Walk.perform (next found) { s with world := { s.world with
                globals := after (history ++ [.obtain key type init]) } }) ∧
      ∀ (call : Errand) (s : Scene), (call.walk s).Guarantees Scene.Requests s := by
  have holds {τ : Type} [DecidableEq τ] {β : τ → Type} (history : List (Access β))
      (access : Access β) : Answers (kept history) access ((after history).serve access).1 := by
    rw [← afterGet]
    exact serveAnswers access
  refine ⟨fun history => ⟨afterGet history, holds history, ?_, ?_, keptConcerned history⟩,
    fun gs key type init => ⟨gs.obtainServed key type init, gs.readServed key type⟩, ?_,
    Errand.walkRequests⟩
  · intro key type make make' there
    rw [← afterGet] at there
    exact serveLazy there make make'
  · intro access idle
    rw [← afterGet] at idle
    rw [afterNext, serveIdle idle]
  · intro history α s key type init next globals
    obtain ⟨found, later, served, performed⟩ := Walk.performServed key type init next s
    rw [globals] at served
    have answered := holds history (.obtain key type init)
    rw [served] at answered
    refine ⟨found, answered, ?_⟩
    rw [performed, afterNext, served]

theorem firstWriterWinsRemoved :
    let before : List (Access Stored.Value) :=
      [.obtain 7 .number fun _ => (1 : Int), .obtain 7 .text fun _ => "b",
        .obtain 7 .number fun _ => (2 : Int)]
    (after before).cells.get? 7 = some ⟨.number, (1 : Int)⟩ ∧
      (after (before ++ [.remove 7, .obtain 7 .text fun _ => "c"])).cells.get? 7 =
        some ⟨.text, "c"⟩ :=
  ⟨congrFun (firstWriterWins.1 _).1 7, congrFun (firstWriterWins.1 _).1 7⟩

end Registry
end Automation
