import Automation.Proofs.Owner
import Automation.Proofs.Places
/-! What a run keeps of its journal. At every moment its fingerprint is that of the values the
journal shows as consumed, and its referents are what the journal shows as published; the same holds
of the run in every notice, for the journal up to there. -/
namespace Automation

namespace Slots

def slot? (m : Slots) (name : String) : Option Nat :=
  (m.rows.reverse.find? fun row => row.2 == name).map Prod.fst

end Slots

namespace Entry

/- What an applet publishes on ending: the payload of a successful result, under its names. -/
def published? : Entry → Option (Slots × Payload)
  | notice _ .terminated _ info run =>
    (run.slate.result.bind AppletResult.published?).map fun payload => (info.referents, payload)
  | _ => none

def publish (names : Referents) (e : Entry) : Referents :=
  match e.published? with
  | some (slots, payload) =>
    slots.rows.foldl (fun names row => names.insert row.2 ⟨row.1, payload⟩) names
  | none => names

def binding? (name : String) (e : Entry) : Option Binding :=
  e.published?.bind fun (slots, payload) => (slots.slot? name).map fun slot => ⟨slot, payload⟩

end Entry

namespace Journal

def checksum (j : Journal) : Checksum := Checksum.start.update (Fingerprint.stream j.consumed)

def names (j : Journal) : Referents := j.foldl Entry.publish Table.empty

def binding? (j : Journal) (name : String) : Option Binding :=
  j.reverse.findSome? (Entry.binding? name)

theorem checksumNote (j : Journal) (e : Entry) :
    checksum (j ++ [e]) = (checksum j).update (Fingerprint.stream e.consumed) := by
  unfold checksum consumed Fingerprint.stream
  rw [List.flatMap_append, List.flatMap_singleton, List.flatMap_append, Checksum.updateAppend]

theorem namesNote (j : Journal) (e : Entry) : names (j ++ [e]) = e.publish (names j) := by
  unfold names
  exact List.foldl_concat ..

end Journal

theorem publishGet (slots : Slots) (payload : Payload) (names : Referents) (name : String) :
    (slots.rows.foldl (fun names row => names.insert row.2 ⟨row.1, payload⟩) names).get? name =
      match slots.slot? name with
      | some slot => some ⟨slot, payload⟩
      | none => names.get? name := by
  unfold Slots.slot?
  -- That the rows ascend plays no part here, and would stand in the way of the induction.
  generalize slots.rows = rows
  induction rows using List.reverseRecOn with
  | nil => rfl
  | append_singleton rows row ih =>
    rw [List.foldl_concat, Table.getInsert, List.reverse_concat, List.find?_cons]
    cases same : row.2 == name with
    | true =>
      rw [if_pos (beq_iff_eq.mp same)]
      rfl
    | false =>
      rw [if_neg (beq_eq_false_iff_ne.mp same)]
      exact ih

theorem namesGet (j : Journal) (name : String) : j.names.get? name = j.binding? name := by
  induction j using List.reverseRecOn with
  | nil => rfl
  | append_singleton j e ih =>
    unfold Journal.binding? at ih ⊢
    rw [Journal.namesNote, List.reverse_concat, List.findSome?_cons, ← ih]
    unfold Entry.publish Entry.binding?
    cases e.published? with
    | none => rfl
    | some published =>
      obtain ⟨slots, payload⟩ := published
      rw [Option.bind_some]
      refine (publishGet slots payload _ name).trans ?_
      dsimp only
      cases slots.slot? name <;> rfl

structure Run.Reflects (r : Run) (j : Journal) : Prop where
  checksum : r.slate.checksum = j.checksum
  referents : r.slate.referents = j.names

theorem reflectsNote {r r' : Run} {j : Journal} {e : Entry} (reflects : r.Reflects j)
    (checksum : r'.slate.checksum = r.slate.checksum.update (Fingerprint.stream e.consumed))
    (referents : r'.slate.referents = e.publish r.slate.referents) : r'.Reflects (j ++ [e]) where
  checksum := by rw [checksum, reflects.checksum, Journal.checksumNote]
  referents := by rw [referents, reflects.referents, Journal.namesNote]

namespace Scene

structure Faithful (s : Scene) : Prop where
  now : s.run.Reflects s.journal
  told : ∀ before heard phase path info run,
    before ++ [.notice heard phase path info run] <+: s.journal →
      run.Reflects (before ++ [.notice heard phase path info run])

variable {s t : Scene}

theorem sameFaithful (faithful : s.Faithful) (journal : t.journal = s.journal)
    (checksum : t.run.slate.checksum = s.run.slate.checksum)
    (referents : t.run.slate.referents = s.run.slate.referents) : t.Faithful where
  now := ⟨by rw [checksum, journal, faithful.now.checksum],
    by rw [referents, journal, faithful.now.referents]⟩
  told := by
    rw [journal]
    exact faithful.told

theorem noteFaithful {e : Entry} (faithful : s.Faithful) (journal : t.journal = s.journal ++ [e])
    (checksum : t.run.slate.checksum =
      s.run.slate.checksum.update (Fingerprint.stream e.consumed))
    (referents : t.run.slate.referents = e.publish s.run.slate.referents)
    (told : ∀ heard phase path info run, e = .notice heard phase path info run → run = t.run) :
    t.Faithful := by
  have now := reflectsNote faithful.now checksum referents
  refine ⟨journal ▸ now, fun before heard phase path info run inside => ?_⟩
  rw [journal, List.prefix_concat_iff] at inside
  rcases inside with last | earlier
  · obtain ⟨rfl, same⟩ := List.append_inj' last rfl
    rw [told heard phase path info run (List.singleton_inj.mp same).symm] at last ⊢
    rwa [last]
  · exact faithful.told before heard phase path info run earlier

theorem tellFaithful (faithful : s.Faithful) (phase : Phase) (other : phase ≠ .terminated)
    (path : List Nat) (info : AppletInfo) : (s.tell phase path info).Faithful := by
  refine noteFaithful faithful rfl rfl ?_ fun heard phase path info run same => ?_
  · cases phase with
    | started | skipped => rfl
    | terminated => exact absurd rfl other
  · cases same
    rfl

theorem startFaithful (faithful : s.Faithful) (path : List Nat) (info : AppletInfo) :
    (s.start path info).Faithful := by
  unfold start
  split
  · exact faithful
  · have set : (s.onRun fun r => r.setApplet info).Faithful := sameFaithful faithful rfl rfl rfl
    exact tellFaithful set .started (by simp) path info

theorem finishFaithful (faithful : s.Faithful) (path : List Nat) (info : AppletInfo)
    (result : AppletResult) : (s.finish path info result).Faithful := by
  refine noteFaithful faithful (finishJournal s path info result) ?_ ?_ fun _ _ _ _ run same => ?_
  · unfold finish Run.register
    cases result.published? <;> rfl
  · have registered : (s.finish path info result).run.slate.result = some result := by
      unfold finish Run.register
      cases result.published? <;> rfl
    rw [Entry.publish, Entry.published?, registered, Option.bind_some]
    unfold finish Run.register
    cases result.published? <;> rfl
  · cases same
    rfl

theorem skipFromFaithful (faithful : s.Faithful) (path : List Nat) (i : Nat)
    (children : List Applet) : (s.skipFrom path i children).Faithful := by
  induction children generalizing s i with
  | nil => exact faithful
  | cons child rest ih => exact ih (tellFaithful faithful .skipped (by simp) _ _) (i + 1)

theorem foldFaithful (faithful : s.Faithful) {e : Entry} (journal : t.journal = s.journal ++ [e])
    (checksum : t.run.slate.checksum = e.consumed.foldl Fingerprint.fold s.run.slate.checksum)
    (referents : t.run.slate.referents = s.run.slate.referents)
    (silent : ∀ phase, e.what ≠ .told phase) : t.Faithful := by
  refine noteFaithful faithful journal (checksum.trans (Fingerprint.foldAll _ _)) ?_ ?_
  · rw [referents]
    cases e with
    | notice heard phase => exact absurd rfl (silent phase)
    | _ => rfl
  · rintro heard phase path info run rfl
    exact absurd rfl (silent phase)

theorem beginCheckFaithful (faithful : s.Faithful) (path : List Nat) (info : AppletInfo)
    (expected : Option Json) : (s.beginCheck path info expected).2.Faithful := by
  simp only [beginCheck, note, onRun, foldAllRun]
  exact foldFaithful faithful rfl rfl rfl (by simp [Entry.what])

theorem beginActionFaithful (faithful : s.Faithful) (path : List Nat) (info : AppletInfo) :
    (s.beginAction path info).2.Faithful := by
  simp only [beginAction, note, onRun, foldAllRun]
  exact foldFaithful faithful rfl rfl rfl (by simp [Entry.what])

theorem endCheckFaithful (faithful : s.Faithful) (path : List Nat) (info : AppletInfo)
    (outcome : Except ApplyError Checked) : (s.endCheck path info outcome).2.Faithful := by
  cases outcome with
  | error cause => exact foldFaithful faithful rfl rfl rfl (by simp [Entry.what])
  | ok c =>
    simp only [endCheck]
    split <;> exact foldFaithful faithful rfl rfl rfl (by simp [Entry.what])

theorem endActionFaithful (faithful : s.Faithful) (path : List Nat)
    (outcome : Except ApplyError Json) : (s.endAction path outcome).2.Faithful := by
  cases outcome <;> exact foldFaithful faithful rfl rfl rfl (by simp [Entry.what])

theorem tryWaitFaithful (faithful : s.Faithful) (path : List Nat) (info : AppletInfo)
    (wait : Wait) : (s.tryWait path info wait).2.Faithful := by
  unfold tryWait
  split
  · exact foldFaithful faithful rfl rfl rfl (by simp [Entry.what])
  · exact sameFaithful faithful rfl rfl rfl

theorem chooseFaithful (faithful : s.Faithful) (path : List Nat) (spec : FlowSpec) (level : Nat) :
    (s.choose path spec level).2.Faithful := by
  unfold choose
  split
  · exact faithful
  · split
    · exact faithful
    · exact foldFaithful faithful rfl rfl rfl (by simp [Entry.what])

theorem leaveFlowFaithful (faithful : s.Faithful) (spec : FlowSpec) (level : Nat) :
    (s.leaveFlow spec level).2.Faithful := by
  have left : (s.exitFlow level).2.Faithful := sameFaithful faithful rfl rfl rfl
  unfold leaveFlow
  dsimp only
  split
  · exact left
  · split
    · split <;> exact sameFaithful left rfl rfl rfl
    · exact sameFaithful left rfl rfl rfl

theorem changeFaithful {f : Scene → Scene} (step : Change f) (faithful : s.Faithful) :
    (f s).Faithful := by
  induction step generalizing s with
  | start path info => exact startFaithful faithful path info
  | finish path info result => exact finishFaithful faithful path info result
  | skip path info => exact tellFaithful faithful .skipped (by simp) path info
  | skipFrom path i children => exact skipFromFaithful faithful path i children
  | abandonFlow path children level =>
    exact sameFaithful (skipFromFaithful faithful path 0 children) rfl rfl rfl
  | comp first second ihFirst ihSecond => exact ihSecond (ihFirst faithful)
  | _ => exact sameFaithful faithful rfl rfl rfl

theorem actFaithful {α : Type} {f : Scene → α × Scene} (step : Act f) (faithful : s.Faithful) :
    (f s).2.Faithful := by
  cases step with
  | beginCheck path info expected => exact beginCheckFaithful faithful path info expected
  | endCheck path info outcome => exact endCheckFaithful faithful path info outcome
  | beginAction path info => exact beginActionFaithful faithful path info
  | endAction path outcome => exact endActionFaithful faithful path outcome
  | tryWait path info wait => exact tryWaitFaithful faithful path info wait
  | choose path spec level => exact chooseFaithful faithful path spec level
  | leaveFlow spec level => exact leaveFlowFaithful faithful spec level
  | enterFlow | passOn level kind => exact sameFaithful faithful rfl rfl rfl

theorem faithfulKept : Walk.Kept fun s t => s.Faithful → t.Faithful where
  trans := fun _ _ _ first second faithful => second (first faithful)
  change := fun step _ => changeFaithful step
  act := fun step _ => actFaithful step
  others := fun _ _ others faithful =>
    sameFaithful faithful others.journal (by rw [others.run]) (by rw [others.run])

end Scene

namespace Lone
open Scene

theorem obtainFaithful {world : World} (clean : world.slates.Clean) (task : Task) (handle : Handle)
    (observer : Option Observer) (target : Option Json) (first : Batch) :
    (((obtain world task handle observer first).aim target).scene first).Faithful := by
  have fresh := (Pool.takeClean clean).1
  refine ⟨⟨?_, ?_⟩, fun before heard phase path info run inside => ?_⟩
  · simp only [scene, aim, obtain, World.obtain, Run.setTarget, Run.setObserver, fresh]
    rfl
  · simp only [scene, aim, obtain, World.obtain, Run.setTarget, Run.setObserver, fresh]
    rfl
  · have empty : before ++ [.notice heard phase path info run] = [] := List.prefix_nil.mp inside
    simp at empty

variable {world : World} {task : Task} {handle : Handle} {observer : Option Observer}
  {target : Option Json} {first : Batch} {batches : List Batch} {s : Scene}
  {r : Option (Except Stop (Option Outcome))}

theorem momentFaithful (clean : world.slates.Clean)
    (moment : Moment ((obtain world task handle observer first).aim target) first batches s r) :
    s.Faithful :=
  momentHolds (obtainFaithful clean task handle observer target first) faithfulKept
    (fun _ faithful => sameFaithful faithful rfl rfl rfl)
    (fun _ _ _ hands faithful =>
      sameFaithful faithful hands.journal (by rw [hands.run]) (by rw [hands.run])) moment

theorem momentChronicle (clean : world.slates.Clean)
    (moment : Moment ((obtain world task handle observer first).aim target) first batches s r) :
    ∃ r', Chronicle target [] task.tree s.journal r' :=
  restsChronicle
    (backRests (momentBack (obtainStands clean task handle observer target first) rfl moment))

end Lone
end Automation
