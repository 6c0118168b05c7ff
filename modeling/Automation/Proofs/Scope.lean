import Mathlib.Data.List.Pairwise
import Automation.Proofs.Owner
import Automation.Proofs.Places
/-! Targets are lexically scoped: a node is evaluated at the target that the flow nearest around
it has chosen, however often the run was suspended since, and leaves the target as it was. -/
namespace Automation

instance : Std.Symm Entry.Differs where
  symm _ _ := Or.imp Ne.symm Ne.symm

section
variable {target : Option Json} {a : Applet} {journal : Journal} {r : Option AppletResult}
  {e e' : Entry} {path : List Nat}

theorem uniqueSame (unique : journal.Pairwise Entry.Differs) (inside : e ∈ journal)
    (inside' : e' ∈ journal) (what : e.what = e'.what) (path : e.path = e'.path) : e = e' := by
  by_contra other
  rcases unique.forall inside inside' other with different | different
  · exact different what
  · exact different path

theorem entryScoped (chronicle : Chronicle target [] a journal r) (inside : e ∈ journal)
    (told : e.skips = false) :
    ∃ b aim own r', a.at? e.path = some b ∧ journal.Owns e.path own ∧
      Own aim e.path b own r' e ∧ a.Aims target [] journal e.path aim := by
  obtain ⟨q, b, aim, own, r', same, held, low⟩ := chronicleLocated chronicle inside told
  rw [List.nil_append] at same
  subst same
  exact ⟨b, aim, own, r', low.located, low.owns, chronicleOwn low.chronicle held rfl, low.scope⟩

theorem checkingScoped (chronicle : Chronicle target [] a journal r) {input : CheckInput}
    (inside : .checking path input ∈ journal) :
    a.Aims target [] journal path input.target := by
  obtain ⟨b, aim, own, r', -, -, what, aims⟩ := entryScoped chronicle inside rfl
  cases what with
  | deed shape started deed within =>
    obtain ⟨-, same, -⟩ := deedChecking deed within
    rw [same, started]
    exact aims

theorem performingScoped (chronicle : Chronicle target [] a journal r) {input : ActionInput}
    (inside : .performing path input ∈ journal) :
    a.Aims target [] journal path input.target := by
  obtain ⟨b, aim, own, r', -, -, what, aims⟩ := entryScoped chronicle inside rfl
  cases what with
  | deed shape started deed within =>
    obtain ⟨-, same, -⟩ := deedPerforming deed within
    rw [same, started]
    exact aims

theorem noticeScoped (chronicle : Chronicle target [] a journal r) {heard : Option Observer}
    {phase : Phase} {info : AppletInfo} {run : Run}
    (inside : .notice heard phase path info run ∈ journal) (told : phase ≠ .skipped) :
    a.Aims target [] journal path run.slate.target := by
  obtain ⟨b, aim, own, r', -, -, what, aims⟩ := entryScoped chronicle inside (by
    simpa [Entry.skips] using told)
  cases what with
  | started shape started =>
    rw [started]
    exact aims
  | ended ended last =>
    rw [ended.target]
    exact aims
  | deed shape started deed within => cases deed <;> simp at within

theorem selectedScoped (chronicle : Chronicle target [] a journal r) {v : Json}
    (inside : .selected path v ∈ journal) :
    (∀ v', .selected path v' ∈ journal → v' = v) ∧
      ∃ info spec children select heard run, a.at? path = some (.flow info spec children) ∧
        spec.selector = some select ∧ select run.batch = some v ∧
        [.notice heard .started path info run, .selected path v] <:+: journal := by
  refine ⟨fun v' inside' => ?_, ?_⟩
  · have same := uniqueSame (chronicleUnique chronicle) inside' inside rfl rfl
    cases same
    rfl
  · obtain ⟨b, aim, own, r', located, owns, what, -⟩ := entryScoped chronicle inside rfl
    cases what with
    | @selected info spec children heard run select v rest flow selector chosen shape =>
      subst flow shape
      refine ⟨info, spec, children, select, heard, run, located, selector, chosen, ?_⟩
      exact (List.prefix_append [_, _] rest).isInfix.trans (ownsInfix owns)
    | deed shape started deed within => cases deed <;> simp at within

theorem aimsSame (chronicle : Chronicle target [] a journal r) {aim aim' : Option Json}
    (first : a.Aims target [] journal path aim) (second : a.Aims target [] journal path aim') :
    aim = aim' := by
  unfold Applet.Aims at first second
  cases chooser : a.chooser? path with
  | none =>
    rw [chooser] at first second
    exact first.trans second.symm
  | some c =>
    rw [chooser] at first second
    obtain ⟨v, selected, rfl⟩ := first
    obtain ⟨v', selected', rfl⟩ := second
    rw [(selectedScoped chronicle selected').1 v selected]

end

namespace Lone

/- At every moment of a run with this target, the criteria and actions have been called with the
target in scope: the one of the flow nearest around them that chooses one, which is the last on
the way down to them, and that of the run if there is none. A flow chooses once, on the batch
that it is first entered on. Every node is ended at the target that it was started at, so a
completed run has its own target again. -/
theorem targetsScoped {world : World} (clean : world.slates.Clean) {task : Task} {handle : Handle}
    {observer : Option Observer} {target : Option Json} {first : Batch} {batches : List Batch}
    {s : Scene} {r : Option (Except Stop (Option Outcome))}
    (moment : Moment ((obtain world task handle observer first).aim target) first batches s r) :
    (∀ path, task.tree.chooser? path =
      path.inits.dropLast.reverse.find? fun q => (task.tree.at? q).any Applet.chooses) ∧
    (∀ path input, .checking path input ∈ s.journal →
      task.tree.Aims target [] s.journal path input.target) ∧
    (∀ path input, .performing path input ∈ s.journal →
      task.tree.Aims target [] s.journal path input.target) ∧
    (∀ path v, .selected path v ∈ s.journal →
      (∀ v', .selected path v' ∈ s.journal → v' = v) ∧
      ∃ info spec children select heard run, task.tree.at? path = some (.flow info spec children) ∧
        spec.selector = some select ∧ select run.batch = some v ∧
        [.notice heard .started path info run, .selected path v] <:+: s.journal) ∧
    (∀ heard phase path info run, .notice heard phase path info run ∈ s.journal →
      phase ≠ .skipped → task.tree.Aims target [] s.journal path run.slate.target) ∧
    (∀ path heard info run heard' info' run', .notice heard .started path info run ∈ s.journal →
      .notice heard' .terminated path info' run' ∈ s.journal →
      run'.slate.target = run.slate.target) ∧
    (r = some (.ok (some .completed)) → s.run.slate.target = target) := by
  have back := momentBack (obtainStands clean task handle observer target first) rfl moment
  obtain ⟨r', chronicle⟩ := restsChronicle (backRests back)
  refine ⟨task.tree.chooserNearest, fun path input => checkingScoped chronicle,
    fun path input => performingScoped chronicle, fun path v => selectedScoped chronicle,
    fun heard phase path info run => noticeScoped chronicle, ?_, ?_⟩
  · intro path heard info run heard' info' run' started ended
    exact aimsSame chronicle (noticeScoped chronicle ended (by simp))
      (noticeScoped chronicle started (by simp))
  · rintro rfl
    exact backCompleted back

theorem targetsScopedLauncher :
    World.fresh.slates.Clean ∧
      Moment launcherLone launcherBatch launcherBatches launcherEnd
        (some (.ok (some .completed))) ∧
      launcherTask.tree.chooser? [0, 0, 0] = some [0, 0] ∧
      launcherTask.tree.chooser? [1, 1] = none ∧
      (∃ input, .checking [0, 0, 0] input ∈ launcherEnd.journal ∧ ∃ v,
        .selected [0, 0] v ∈ launcherEnd.journal ∧ input.target = some v) ∧
      (∃ input, .performing [1, 1] input ∈ launcherEnd.journal ∧
        input.target = some (.str "desktop")) ∧
      launcherEnd.run.slate.target = some (.str "desktop") := by
  have clean : World.fresh.slates.Clean := fun a inside => nomatch inside
  obtain ⟨-, checks, performs, -, -, -, ends⟩ := targetsScoped clean launcherMoment
  have checking : ∃ input, .checking [0, 0, 0] input ∈ launcherEnd.journal :=
    ⟨_, List.mem_of_getElem? (i := 5) rfl⟩
  have performing : ∃ input, .performing [1, 1] input ∈ launcherEnd.journal :=
    ⟨_, List.mem_of_getElem? (i := 15) rfl⟩
  obtain ⟨input, inside⟩ := checking
  obtain ⟨input', inside'⟩ := performing
  exact ⟨clean, launcherMoment, rfl, rfl, ⟨input, inside, checks _ input inside⟩,
    ⟨input', inside', performs _ input' inside'⟩, ends rfl⟩

end Lone
end Automation
