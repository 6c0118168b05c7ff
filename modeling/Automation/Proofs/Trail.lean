import Mathlib.Data.List.Lex
import Mathlib.Data.List.Nodup
import Automation.Proofs.Settling
/-! Trails. The trail of a walk are the places at which it starts applets and has actions carried
out, one after another, as its journal shows them. What a step of the walk adds to the journal adds
at most one place to the trail, so that the order of the whole is settled by where the applets stand
in the tree: a flow comes before what is below it, and that before what is below the children
behind. -/
namespace Automation

/- The place that an entry adds to a trail. An action is carried out below its own place, where
there is nothing else. -/
def Entry.tread? : Entry → Option (List Nat)
  | .notice _ .started path _ _ => some path
  | .performing path _ => some (path ++ [0])
  | _ => none

def Entry.act? : Entry → Option (List Nat)
  | .performing path _ => some path
  | _ => none

namespace Journal

def trail (j : Journal) : List (List Nat) := j.filterMap Entry.tread?

def acts (j : Journal) : List (List Nat) := j.filterMap Entry.act?

theorem actsTrail (j : Journal) : (j.acts.map (· ++ [0])).Sublist j.trail := by
  unfold acts trail
  rw [List.map_filterMap]
  induction j with
  | nil => exact .slnil
  | cons e rest ih =>
    cases acted : e.act? with
    | none =>
      rw [List.filterMap_cons_none (by rw [acted]; rfl)]
      cases trodden : e.tread? with
      | none => rwa [List.filterMap_cons_none trodden]
      | some place =>
        rw [List.filterMap_cons_some trodden]
        exact ih.cons place
    | some path =>
      have trodden : e.tread? = some (path ++ [0]) := by
        cases e with
        | performing path' input =>
          cases acted
          rfl
        | _ => cases acted
      rw [List.filterMap_cons_some trodden, List.filterMap_cons_some (by rw [acted]; rfl)]
      exact ih.cons_cons _

theorem actsOnce {j : Journal} (rising : j.trail.Pairwise (· < ·)) : j.acts.Nodup :=
  List.Nodup.of_map (· ++ [0]) (rising.nodup.sublist j.actsTrail)

end Journal

structure Rises (expected : List Nat → Prop) (places : List (List Nat)) : Prop where
  rising : places.Pairwise (· < ·)
  within : ∀ p ∈ places, expected p

section
variable {path p q : List Nat} {i k : Nat} {first second expected : List Nat → Prop}
  {places later : List (List Nat)}

theorem parentBefore (below : path ++ [i] <+: p) : path < p := by
  obtain ⟨rest, rfl⟩ := below
  have less : List.Lex (· < ·) (path ++ []) (path ++ ([i] ++ rest)) :=
    List.Lex.append_left (· < ·) .nil path
  rwa [List.append_nil, ← List.append_assoc] at less

theorem childBefore (earlier : i < k) (here : path ++ [i] <+: p) (behind : path ++ [k] <+: q) :
    p < q := by
  obtain ⟨rest, rfl⟩ := here
  obtain ⟨rest', rfl⟩ := behind
  rw [List.append_assoc, List.append_assoc]
  exact List.Lex.append_left (· < ·) (.rel earlier) path

theorem risesNone : Rises expected [] := ⟨.nil, by simp⟩

theorem risesOne (here : expected p) : Rises expected [p] :=
  ⟨List.pairwise_singleton _ _, by simpa using here⟩

theorem risesAppend (front : Rises first places) (back : Rises second later)
    (order : ∀ p q, first p → second q → p < q) (left : ∀ p, first p → expected p)
    (right : ∀ q, second q → expected q) : Rises expected (places ++ later) where
  rising := List.pairwise_append.mpr ⟨front.rising, back.rising, fun p inside q inside' =>
    order p q (front.within p inside) (back.within q inside')⟩
  within := fun p inside => (List.mem_append.mp inside).elim
    (fun inside => left p (front.within p inside)) fun inside => right p (back.within p inside)

theorem risesWeaken (rises : Rises first places) (weaker : ∀ p, first p → expected p) :
    Rises expected places := ⟨rises.rising, fun p inside => weaker p (rises.within p inside)⟩

end

namespace Scene
variable {s t u : Scene} {places later : List (List Nat)} {path : List Nat} {info : AppletInfo}

def trail (s : Scene) : List (List Nat) := s.journal.trail

def Adds (s u : Scene) (places : List (List Nat)) : Prop :=
  ∃ part : Journal, u.journal = s.journal ++ part ∧ part.trail = places

theorem addsTrail (adds : s.Adds u places) : u.trail = s.trail ++ places := by
  obtain ⟨part, grown, rfl⟩ := adds
  rw [trail, grown]
  exact List.filterMap_append ..

theorem addsSame (same : u.journal = s.journal) : s.Adds u [] :=
  ⟨[], by rw [same, List.append_nil], rfl⟩

theorem addsTrans (first : s.Adds t places) (second : t.Adds u later) :
    s.Adds u (places ++ later) := by
  obtain ⟨part, grown, rfl⟩ := first
  obtain ⟨part', grown', rfl⟩ := second
  refine ⟨part ++ part', by rw [grown', grown, List.append_assoc], ?_⟩
  exact List.filterMap_append ..

theorem addsAfter (first : s.Adds t []) (second : t.Adds u places) : s.Adds u places :=
  addsTrans first second

theorem addsUntil (first : s.Adds t places) (second : t.Adds u []) : s.Adds u places :=
  places.append_nil ▸ addsTrans first second

theorem noteAdds (s : Scene) (entry : Entry) : s.Adds (s.note entry) entry.tread?.toList := by
  refine ⟨[entry], rfl, ?_⟩
  cases trodden : entry.tread? <;> simp [Journal.trail, trodden]

theorem startAdds (forward : s.run.slate.cursor.resuming = false) (path : List Nat)
    (info : AppletInfo) : s.Adds (s.start path info) [path] := by
  unfold start
  rw [forward]
  exact noteAdds (s.onRun fun r => r.setApplet info) (.notice _ .started path info _)

theorem startBack (back : s.run.slate.cursor.resuming = true) (path : List Nat)
    (info : AppletInfo) : s.start path info = s := if_pos back

theorem finishAdds (s : Scene) (path : List Nat) (info : AppletInfo) (result : AppletResult) :
    s.Adds (s.finish path info result) [] := ⟨_, finishJournal s path info result, rfl⟩

theorem skipFromAdds (s : Scene) (path : List Nat) (i : Nat) (children : List Applet) :
    s.Adds (s.skipFrom path i children) [] := by
  induction children generalizing s i with
  | nil => exact addsSame rfl
  | cons child rest ih => exact addsAfter (noteAdds s _) (ih _ (i + 1))

theorem beginCheckAdds (s : Scene) (path : List Nat) (info : AppletInfo) (expected : Option Json) :
    s.Adds (s.beginCheck path info expected).2 [] :=
  noteAdds (s.onRun fun r => r.foldAll expected.toList) (.checking path _)

theorem beginActionAdds (s : Scene) (path : List Nat) (info : AppletInfo) :
    s.Adds (s.beginAction path info).2 [path ++ [0]] :=
  noteAdds (s.onRun fun r => r.foldAll ((s.run.arguments info).filterMap id)) (.performing path _)

theorem endCheckAdds (s : Scene) (path : List Nat) (info : AppletInfo)
    (outcome : Except ApplyError Checked) : s.Adds (s.endCheck path info outcome).2 [] := by
  refine addsUntil (noteAdds s (.checked path outcome)) (addsSame ?_)
  cases outcome with
  | ok c =>
    simp only [endCheck]
    split <;> rfl
  | error cause => rfl

theorem endActionAdds (s : Scene) (path : List Nat) (outcome : Except ApplyError Json) :
    s.Adds (s.endAction path outcome).2 [] := by
  refine addsUntil (noteAdds s (.performed path outcome)) (addsSame ?_)
  cases outcome <;> rfl

theorem tryWaitAdds (s : Scene) (path : List Nat) (info : AppletInfo) (wait : Wait) :
    s.Adds (s.tryWait path info wait).2 [] := by
  unfold tryWait
  split
  · rename_i event _
    exact noteAdds (s.onRun fun r => ((r.setWaiting none).setSuspending false).fold event.passed)
      (.released path event)
  · exact addsSame rfl

theorem chooseAdds (s : Scene) (path : List Nat) (spec : FlowSpec) (level : Nat) :
    s.Adds (s.choose path spec level).2 [] := by
  unfold choose
  split
  · exact addsSame rfl
  · split
    · exact addsSame rfl
    · exact noteAdds (s.onRun fun r => _) (.selected path _)

theorem leaveFlowAdds (s : Scene) (spec : FlowSpec) (level : Nat) :
    s.Adds (s.leaveFlow spec level).2 [] := by
  refine addsSame ?_
  unfold leaveFlow
  dsimp only
  split
  · rfl
  · split
    · split <;> rfl
    · rfl

theorem abandonFlowAdds (s : Scene) (path : List Nat) (children : List Applet) (level : Nat) :
    s.Adds (s.abandonFlow path children level) [] :=
  addsUntil (skipFromAdds s path 0 children) (addsSame rfl)

theorem passOverAdds (s : Scene) (path : List Nat) (info : AppletInfo) (level : Nat)
    (chain : Chain) : s.Adds ((s.tell .skipped path info).passOver level chain) [] :=
  addsUntil (noteAdds s (.notice _ .skipped path info _)) (addsSame rfl)

def Trod (expected : List Nat → Prop) (s u : Scene) : Prop :=
  ∃ places, s.Adds u places ∧ Rises expected places

def Frees (place : List Nat) (held : AppletInfo) (event : Event) (s u : Scene) : Prop :=
  ∃ heard run rest, run.slate.result = some (.passing event.passed) ∧ u.journal = s.journal ++
    (.released place event :: .notice heard .terminated place held run :: rest)

theorem freesUntil {place : List Nat} {held : AppletInfo} {event : Event}
    (frees : Frees place held event s t) (adds : t.Adds u places) : Frees place held event s u := by
  obtain ⟨heard, run, rest, result, grown⟩ := frees
  obtain ⟨part, grown', -⟩ := adds
  refine ⟨heard, run, rest ++ part, result, ?_⟩
  rw [grown', grown, List.append_assoc]
  rfl

end Scene

namespace Dialogue
variable {α β : Type} {allowed : Demand → Prop} {along along' : Scene → Prop}
  {ends ends' : Scene → Except Stop α → Prop} {ends'' : Scene → Except Stop β → Prop}
  {c : Dialogue α}

def Treads (along : Scene → Prop) (ends : Scene → Except Stop α → Prop) : Dialogue α → Prop
  | .finished s r => ends s r
  | .call s _ _ _ _ next => along s ∧ ∀ answer t, s.Others t → (next answer t).Treads along ends

theorem treadsBind {f : α → Scene → Dialogue β} (first : c.Treads along ends)
    (onward : ∀ s a, ends s (.ok a) → (f a s).Treads along ends'')
    (stop : ∀ s e, ends s (.error e) → ends'' s (.error e)) : (c.bind f).Treads along ends'' := by
  induction c with
  | finished s r =>
    cases r with
    | ok a => exact onward s a first
    | error e => exact stop s e first
  | call s path info executor script next ih =>
    exact ⟨first.1, fun answer t others => ih answer t (first.2 answer t others)⟩

theorem treadsWeaken (first : c.Treads along ends) (calls : ∀ s, along s → along' s)
    (weaker : ∀ s r, ends s r → ends' s r) : c.Treads along' ends' := by
  induction c with
  | finished s r => exact weaker s r first
  | call s path info executor script next ih =>
    exact ⟨calls s first.1, fun answer t others => ih answer t (first.2 answer t others)⟩

theorem treadsWith (sure : c.Sure allowed ends') (treads : c.Treads along ends) :
    c.Treads along fun s r => ends' s r ∧ ends s r := by
  induction c with
  | finished s r => exact ⟨sure, treads⟩
  | call s path info executor script next ih =>
    exact ⟨treads.1, fun answer t others =>
      ih answer t (sure.2 answer t others) (treads.2 answer t others)⟩

theorem treadsSure (sure : c.Sure allowed ends') (treads : c.Treads along ends) :
    c.Sure allowed fun s r => ends' s r ∧ ends s r := by
  induction c with
  | finished s r => exact ⟨sure, treads⟩
  | call s path info executor script next ih =>
    exact ⟨sure.1, fun answer t others =>
      ih answer t (sure.2 answer t others) (treads.2 answer t others)⟩

theorem treadsMoment (treads : c.Treads along ends) {u : Scene} {b : Option (Except Stop α)}
    (comes : c.process.Comes Scene.Others u b) :
    (∃ s, along s ∧ u.journal = s.journal ∧ ∀ a, b ≠ some (.ok a)) ∨
      ∃ r, b = some r ∧ ends u r := by
  induction c with
  | finished s r =>
    cases comes
    exact .inr ⟨r, rfl, treads⟩
  | call s path info executor script next ih =>
    unfold process at comes
    rcases Process.comesBind comes with ⟨here, rfl⟩ | ⟨t, a, first, second⟩
    · exact .inl ⟨s, treads.1, (Walk.performOthers here).journal, by simp⟩
    · have others := Walk.performOthers first
      cases a with
      | ok answer => exact ih answer t (treads.2 answer t others) second
      | error e =>
        cases second
        exact .inl ⟨s, treads.1, others.journal, by simp⟩

end Dialogue

end Automation
