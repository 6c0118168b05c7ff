import Automation.Proofs.Faithful
/-! The law of fingerprints: at every moment of a run its fingerprint is the cyclic redundancy
check of the values consumed so far, each in its canonical form and closed by its terminator. -/
namespace Automation
namespace Lone

theorem reflectsFingerprint {run : Run} {journal : Journal} (reflects : run.Reflects journal) :
    run.fingerprint = Checksum.ofBytes (Fingerprint.stream journal.consumed) :=
  congrArg Checksum.value reflects.checksum

/- What is consumed is what the journal shows: the target that a flow with a selector chooses when
it is first entered, the declared or resolved value of a criterion and the value that its check
compared, the resolved arguments of an action, and the payload of the event that releases a wait.
The journal is a chronicle of the tree, which says each of this once however often the run was
suspended, and whichever batches it was handed in vain. So the fingerprint is the same in any
two runs, of whatever tasks, that consume the same. -/
theorem fingerprintFolds {world : World} (clean : world.slates.Clean) {task : Task}
    {handle : Handle} {observer : Option Observer} {target : Option Json} {first : Batch}
    {batches : List Batch} {s : Scene} {r : Option (Except Stop (Option Outcome))}
    (moment : Moment ((obtain world task handle observer first).aim target) first batches s r) :
    (∃ r', Chronicle target [] task.tree s.journal r') ∧
    s.journal.Pairwise Entry.Differs ∧
    s.run.fingerprint = Checksum.ofBytes (Fingerprint.stream s.journal.consumed) ∧
    (∀ before heard phase path info run,
      before ++ [.notice heard phase path info run] <+: s.journal →
        run.fingerprint = Checksum.ofBytes (Fingerprint.stream (Journal.consumed before))) ∧
    ∀ (world' : World) (task' : Task) (handle' : Handle) (observer' : Option Observer)
      (target' : Option Json) (first' : Batch) (batches' : List Batch) (s' : Scene)
      (r' : Option (Except Stop (Option Outcome))), world'.slates.Clean →
      Moment ((obtain world' task' handle' observer' first').aim target') first' batches' s' r' →
      s'.journal.consumed = s.journal.consumed → s'.run.fingerprint = s.run.fingerprint := by
  have faithful := momentFaithful clean moment
  obtain ⟨r', chronicle⟩ := momentChronicle clean moment
  refine ⟨⟨r', chronicle⟩, chronicleUnique chronicle, reflectsFingerprint faithful.now, ?_, ?_⟩
  · intro before heard phase path info run told
    rw [reflectsFingerprint (faithful.told before heard phase path info run told)]
    simp [Journal.consumed, Entry.consumed]
  · intro world' task' handle' observer' target' first' batches' s' r' clean' moment' same
    rw [reflectsFingerprint (momentFaithful clean' moment').now,
      reflectsFingerprint faithful.now, same]

theorem fingerprintFoldsLauncher :
    World.fresh.slates.Clean ∧
      Moment launcherLone launcherBatch launcherBatches launcherEnd
        (some (.ok (some .completed))) ∧
      launcherEnd.run.fingerprint = Checksum.ofBytes (Fingerprint.stream
        [.record [("package", .str "com.example.launcher")], .str "com.example.launcher",
          .str "com.example.launcher", .record [("title", .str "Settings")],
          .record [("title", .str "Settings")]]) := by
  have clean : World.fresh.slates.Clean := fun a inside => nomatch inside
  have consumed : launcherEnd.journal.consumed =
      [.record [("package", .str "com.example.launcher")], .str "com.example.launcher",
        .str "com.example.launcher", .record [("title", .str "Settings")],
        .record [("title", .str "Settings")]] := rfl
  obtain ⟨-, -, folds, -⟩ := fingerprintFolds clean launcherMoment
  rw [consumed] at folds
  exact ⟨clean, launcherMoment, folds⟩

end Lone
end Automation
