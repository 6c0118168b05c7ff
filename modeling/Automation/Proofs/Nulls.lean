import Automation.Proofs.Naming
import Automation.Proofs.Tale
/-! Nulls behind names. A null that is published as a plain value is no value to those who name
it. A flow that publishes the fields of its target does not look at what is in them: a null in
such a field, or a target that is null, is an argument like any other. -/
namespace Automation

/- Whether the target shows a null in this slot: in the field that is listed there, or, behind the
fields that are listed, by being null itself. -/
def Json.NullAt (v : Json) (names : List String) (slot : Nat) : Prop :=
  match names[slot]? with
  | some name => v.field? name = some .null
  | none => v = .null

/- What `info` names in `slot` was last published as fields of a target, and is a null of it. -/
def Journal.NullBehind (j : Journal) (info : AppletInfo) (slot : Nat) : Prop :=
  ∃ name v names which, info.references.name? slot = some name ∧
    j.binding? name = some ⟨which, .fields v names⟩ ∧ v.NullAt names which

theorem Payload.fieldsNull {v : Json} {names : List String} {slot : Nat} :
    (fields v names).slot? slot = some .null ↔ v.NullAt names slot := by
  simp only [slot?, Json.NullAt]
  cases names[slot]? with
  | none => exact Option.some_inj
  | some name => exact Iff.rfl

theorem Binding.valueNull {b : Binding} :
    b.value? = some .null ↔ ∃ v names, b.payload = .fields v names ∧ v.NullAt names b.slot := by
  obtain ⟨slot, payload⟩ := b
  unfold value?
  dsimp only
  constructor
  · intro null
    cases payload with
    | plain v => cases v <;> simp [Payload.slot?, Json.isNull] at null
    | fields v names => exact ⟨v, names, rfl, Payload.fieldsNull.mp null⟩
  · rintro ⟨v, names, rfl, null⟩
    exact Payload.fieldsNull.mpr null

theorem Slots.arityPositive {m : Slots} {slot : Nat} {name : String}
    (named : m.name? slot = some name) : 0 < m.arity := by
  obtain ⟨row, found, -⟩ := Option.map_eq_some_iff.mp named
  have inside := List.mem_of_find?_eq_some found
  unfold arity
  cases last : m.rows.getLast? with
  | none => simp [List.getLast?_eq_none_iff.mp last] at inside
  | some row => exact Nat.succ_pos _

namespace Journal

theorem argumentNull {j : Journal} {info : AppletInfo} {slot : Nat} :
    j.argument? info slot = some .null ↔ j.NullBehind info slot := by
  unfold argument? NullBehind
  constructor
  · intro resolved
    obtain ⟨name, named, resolved⟩ := Option.bind_eq_some_iff.mp resolved
    obtain ⟨⟨which, payload⟩, bound, null⟩ := Option.bind_eq_some_iff.mp resolved
    obtain ⟨v, names, rfl, null⟩ := Binding.valueNull.mp null
    exact ⟨name, v, names, which, named, bound, null⟩
  · rintro ⟨name, v, names, which, named, bound, null⟩
    rw [named, Option.bind_some, bound, Option.bind_some]
    exact Binding.valueNull.mpr ⟨v, names, rfl, null⟩

theorem argumentPlain {j : Journal} {info : AppletInfo} {slot which : Nat} {name : String}
    (named : info.references.name? slot = some name)
    (bound : j.binding? name = some ⟨which, .plain .null⟩) : j.argument? info slot = none := by
  rw [argument?, named, Option.bind_some, bound]
  rfl

theorem argumentsGet (j : Journal) (info : AppletInfo) (slot : Nat) :
    (j.arguments info)[slot]? = if slot < info.arity then some (j.argument? info slot) else none := by
  rw [arguments, List.getElem?_map]
  split
  · rw [List.getElem?_range ‹_›]
    rfl
  · rw [List.getElem?_eq_none (by rw [List.length_range]; omega)]
    rfl

theorem argumentsJoin (j : Journal) (info : AppletInfo) :
    ((j.arguments info)[0]?).join = j.argument? info 0 := by
  rw [argumentsGet]
  split
  · rfl
  · have unnamed : info.references.name? 0 = none := by
      cases named : info.references.name? 0 with
      | none => rfl
      | some name => exact absurd (Slots.arityPositive named) ‹_›
    rw [argument?, unnamed]
    rfl

end Journal

section
variable {target aim : Option Json} {a : Applet} {journal part : Journal} {path : List Nat}
  {r : AppletResult} {v : Json} {names : List String}

theorem passingPlain (returned : Json) :
    (AppletResult.passing returned).returned? ≠ some (.fields v names) := by
  unfold AppletResult.passing
  split <;> simp [AppletResult.returned?]

theorem deedPlain {run : Run} {batch : Batch} (deed : Deed path run batch a part (some r)) :
    r.returned? ≠ some (.fields v names) := by
  cases deed with
  | unresolved missing => simp [AppletResult.returned?]
  | checked found outcome =>
    cases outcome with
    | error cause => simp [Executor.result, AppletResult.failingBy, AppletResult.returned?]
    | ok checked =>
      simp only [Executor.result]
      split
      · exact passingPlain _
      · unfold AppletResult.failing
        split <;> simp [AppletResult.returned?]
  | performed outcome =>
    cases outcome with
    | error cause => simp [Executor.result, AppletResult.failingBy, AppletResult.returned?]
    | ok returned => exact passingPlain returned
  | released found => exact passingPlain _

theorem chaptersGiven {last : Option AppletResult} {i : Nat} {children : List Applet}
    (chapters : Chapters target path last i children journal (some (some r))) :
    last = some r ∨ ∃ k child part, children[k]? = some child ∧
      Chronicle target (path ++ [i + k]) child part (some r) ∧ part ⊆ journal := by
  induction children generalizing last i journal with
  | nil =>
    cases chapters
    exact .inl rfl
  | cons child rest ih =>
    have behind {last journal} (chapters : Chapters target path last (i + 1) rest journal
        (some (some r))) (other : last ≠ some r) : ∃ k child' part,
        (child :: rest)[k]? = some child' ∧
          Chronicle target (path ++ [i + k]) child' part (some r) ∧ part ⊆ journal := by
      obtain ⟨k, child', part, found, inner, within⟩ := (ih chapters).resolve_left other
      refine ⟨k + 1, child', part, found, ?_, within⟩
      rwa [Nat.add_comm k, ← Nat.add_assoc]
    cases chapters with
    | skipped later =>
      by_cases same : last = some r
      · exact .inl same
      · obtain ⟨k, child', part, found, inner, within⟩ := behind later same
        exact .inr ⟨k, child', part, found, inner,
          List.Subset.trans within (List.subset_cons_self _ _)⟩
    | @visited _ _ _ _ _ _ front r' part _ inner later =>
      by_cases same : r' = r
      · subst same
        exact .inr ⟨0, child, front, rfl, inner, List.subset_append_left _ _⟩
      · obtain ⟨k, child', part', found, inner', within⟩ := behind later (by simpa using same)
        exact .inr ⟨k, child', part', found, inner',
          List.Subset.trans within (List.subset_append_right _ _)⟩

/- Fields are published by flows that have chosen their target; flows around them may pass the
result on. -/
theorem chronicleFields (chronicle : Chronicle target path a journal (some r))
    (returned : r.returned? = some (.fields v names)) :
    ∃ q info spec children, a.at? q = some (.flow info spec children) ∧
      spec.selector.isSome ∧ spec.fields = some names ∧ .selected (path ++ q) v ∈ journal := by
  induction a using Applet.byChildren generalizing target path journal r with
  | criterion info check | action info action | wait info wait =>
    cases chronicle with
    | leaf started deed ended => exact absurd returned (deedPlain deed)
  | flow info spec children ih =>
    cases chronicle with
    | leaf started deed ended => cases deed
    | unavailable started selector missing skips ended => simp [AppletResult.returned?] at returned
    | @flow _ _ _ _ _ opening inside part last heard run opens inner ended =>
      -- A result that the flow has from its last child comes from below that child.
      have passed (given : (last.getD (.empty true)).returned? = some (.fields v names)) :
          ∃ q info' spec' children', Applet.at? q (.flow info spec children) =
            some (.flow info' spec' children') ∧ spec'.selector.isSome ∧
            spec'.fields = some names ∧ .selected (path ++ q) v ∈ opening ++ part := by
        cases last with
        | none => simp [AppletResult.returned?] at given
        | some r =>
          obtain ⟨k, child, mid, found, lower, within⟩ := (chaptersGiven inner).resolve_left (by simp)
          rw [Nat.zero_add] at lower
          obtain ⟨q, info', spec', children', located, selector, fields, selected⟩ :=
            ih child (List.mem_of_getElem? found) lower given
          refine ⟨k :: q, info', spec', children', ?_, selector, fields, ?_⟩
          · rw [Applet.at?, Applet.children, found, Option.bind_some, located]
          · rw [List.append_assoc] at selected
            exact List.mem_append_right _ (within selected)
      have whole {e : Entry} (inside : e ∈ opening ++ part) :
          e ∈ opening ++ part ++ [.notice heard .terminated path info run] :=
        List.mem_append_left _ inside
      cases opens with
      | plain started plain =>
        simp only [FlowSpec.result, plain] at returned
        obtain ⟨q, info', spec', children', located, selector, fields, selected⟩ := passed returned
        exact ⟨q, info', spec', children', located, selector, fields, whole selected⟩
      | @chosen heard' run' select v' started selector chosen =>
        simp only [FlowSpec.result, selector] at returned
        split at returned
        · cases fields : spec.fields with
          | none => simp [fields, AppletResult.passingWith, AppletResult.returned?] at returned
          | some names' =>
            simp only [fields, AppletResult.passingWith, AppletResult.returned?,
              Option.some.injEq, Payload.fields.injEq] at returned
            obtain ⟨rfl, rfl⟩ := returned
            exact ⟨[], info, spec, children, rfl, by simp [selector], fields, by simp⟩
        · obtain ⟨q, info', spec', children', located, selector', fields, selected⟩ :=
            passed returned
          exact ⟨q, info', spec', children', located, selector', fields, whole selected⟩

theorem bindingFields {before : Journal} {r : Option AppletResult} {name : String} {which : Nat}
    (chronicle : Chronicle target [] a journal r) (within : before ⊆ journal)
    (bound : before.binding? name = some ⟨which, .fields v names⟩) :
    ∃ path info spec children, a.at? path = some (.flow info spec children) ∧
      spec.selector.isSome ∧ spec.fields = some names ∧ .selected path v ∈ journal := by
  obtain ⟨e, inside, binds⟩ := List.exists_of_findSome?_eq_some bound
  obtain ⟨⟨slots, payload⟩, published, slot⟩ := Option.bind_eq_some_iff.mp binds
  obtain ⟨slot, -, same⟩ := Option.map_eq_some_iff.mp slot
  cases same
  have held := within (List.mem_reverse.mp inside)
  cases e with
  | notice heard phase p info run =>
    cases phase with
    | terminated =>
      obtain ⟨payload, published, same⟩ := Option.map_eq_some_iff.mp published
      cases same
      obtain ⟨result, registered, published⟩ := Option.bind_eq_some_iff.mp published
      have returned := (Option.ite_none_right_eq_some.mp published).2
      obtain ⟨q, b, aim, own, r', same, held, low⟩ := chronicleLocated chronicle held rfl
      rw [List.nil_append] at same
      subst same
      cases chronicleOwn low.chronicle held rfl with
      | ended ended last =>
        subst last
        cases ended.result.symm.trans registered
        obtain ⟨q', info', spec, children, located, selector, fields, selected⟩ :=
          chronicleFields low.chronicle returned
        refine ⟨_, info', spec, children, ?_, selector, fields,
          (ownsInfix low.owns).subset selected⟩
        rw [List.nil_append, atAppend, low.located, Option.bind_some, located]
      | deed shape started deed within => cases deed <;> simp at within
    | started | skipped => cases published
  | _ => cases published

theorem unresolvedFails {r : Option AppletResult} {heard : Option Observer} {info : AppletInfo}
    {check : Check} {run : Run} (chronicle : Chronicle target [] a journal r)
    (located : a.at? path = some (.criterion info check))
    (inside : .notice heard .started path info run ∈ journal)
    (missing : run.expected? info = none) :
    (∀ input, .checking path input ∉ journal) ∧
      ∀ heard' info' run', .notice heard' .terminated path info' run' ∈ journal →
        run'.slate.result = some (.empty false) := by
  have unique := chronicleUnique chronicle
  constructor
  · intro input checking
    obtain ⟨b, aim, own, r', located', owns, what, -⟩ := entryScoped chronicle checking rfl
    cases located.symm.trans located'
    cases what with
    | deed shape started deed within =>
      obtain ⟨-, -, found, -⟩ := deedChecking deed within
      subst shape
      have first := (ownsInfix owns).subset List.mem_cons_self
      cases uniqueSame unique inside first rfl rfl
      cases missing.symm.trans found
  · intro heard' info' run' ended
    obtain ⟨b, result, located', -, registered, produced⟩ := endedProduced chronicle ended
    cases located.symm.trans located'
    rw [registered]
    cases produced with
    | leaf started deed within =>
      cases uniqueSame unique inside started rfl rfl
      cases deed with
      | unresolved => rfl
      | checked found => cases missing.symm.trans found

end

namespace Lone

/- At every moment of a run, and at every notice in its course, an argument is null if and only if
its name was last published as fields of a target and is a null of that target, one that a flow
of the tree has chosen; a name last published as a plain null stands for nothing. A criterion
that names a value is checked with what the name stands for, a null of a target included, and
one whose name stands for nothing fails unchecked. An action is given such a null as it is given
other arguments, and its declared value stands in where its first name stands for nothing. -/
theorem nullsResolve {world : World} (clean : world.slates.Clean) {task : Task} {handle : Handle}
    {observer : Option Observer} {target : Option Json} {first : Batch} {batches : List Batch}
    {s : Scene} {r : Option (Except Stop (Option Outcome))}
    (moment : Moment ((obtain world task handle observer first).aim target) first batches s r) :
    (∀ info slot, s.run.argument? info slot = some .null ↔ s.journal.NullBehind info slot) ∧
    (∀ info slot name which, info.references.name? slot = some name →
      s.journal.binding? name = some ⟨which, .plain .null⟩ → s.run.argument? info slot = none) ∧
    (∀ before heard phase path info run,
      before ++ [.notice heard phase path info run] <+: s.journal → ∀ info' slot,
        (run.argument? info' slot = some .null ↔
          Journal.NullBehind (before ++ [.notice heard phase path info run]) info' slot) ∧
        ∀ name which, info'.references.name? slot = some name →
          Journal.binding? (before ++ [.notice heard phase path info run]) name =
            some ⟨which, .plain .null⟩ → run.argument? info' slot = none) ∧
    (∀ before, before <+: s.journal → ∀ name which v names,
      Journal.binding? before name = some ⟨which, .fields v names⟩ →
        ∃ path info spec children, task.tree.at? path = some (.flow info spec children) ∧
          spec.selector.isSome ∧ spec.fields = some names ∧ .selected path v ∈ s.journal) ∧
    (∀ path input, .checking path input ∈ s.journal → input.applet.references.contains 0 →
      ∃ before after v, s.journal = before ++ .checking path input :: after ∧
        input.expected = some v ∧ (v = .null ↔ Journal.NullBehind before input.applet 0)) ∧
    (∀ heard path info check run, task.tree.at? path = some (.criterion info check) →
      .notice heard .started path info run ∈ s.journal → info.references.contains 0 →
      run.argument? info 0 = none → (∀ input, .checking path input ∉ s.journal) ∧
        ∀ heard' info' run', .notice heard' .terminated path info' run' ∈ s.journal →
          run'.slate.result = some (.empty false)) ∧
    ∀ path input, .performing path input ∈ s.journal →
      ∃ before after, s.journal = before ++ .performing path input :: after ∧
        (∀ slot, input.args[slot]? = some (some .null) ↔
          slot < input.applet.arity ∧ Journal.NullBehind before input.applet slot) ∧
        input.arg 0 = (Journal.argument? before input.applet 0).or input.applet.value := by
  have faithful := momentFaithful clean moment
  obtain ⟨r', chronicle⟩ := momentChronicle clean moment
  refine ⟨fun info slot => ?_, fun info slot name which named bound => ?_, ?_, ?_, ?_, ?_, ?_⟩
  · rw [reflectsArgument faithful.now]
    exact Journal.argumentNull
  · rw [reflectsArgument faithful.now]
    exact Journal.argumentPlain named bound
  · intro before heard phase path info run told info' slot
    rw [reflectsArgument (faithful.told before heard phase path info run told)]
    exact ⟨Journal.argumentNull, fun name which => Journal.argumentPlain⟩
  · intro before earlier name which v names bound
    exact bindingFields chronicle earlier.subset bound
  · intro path input checking named
    obtain ⟨before, after, split, expected⟩ := checkingNamed faithful chronicle checking
    rw [Journal.expected?, if_pos named] at expected
    obtain ⟨v, resolved, same⟩ := Option.map_eq_some_iff.mp expected
    refine ⟨before, after, v, split, same.symm, ?_⟩
    rw [← Journal.argumentNull, resolved, Option.some.injEq]
  · intro heard path info check run located started named missing
    refine unresolvedFails chronicle located started ?_
    rw [Run.expected?, if_pos named, missing]
    rfl
  · intro path input performing
    obtain ⟨before, after, split, args⟩ := performingNamed faithful chronicle performing
    refine ⟨before, after, split, fun slot => ?_, ?_⟩
    · rw [args, Journal.argumentsGet, Option.ite_none_right_eq_some, Option.some.injEq,
        Journal.argumentNull]
    · rw [ActionInput.arg, args, Journal.argumentsJoin]
      cases before.argument? input.applet 0 <;> rfl

def packageTask : Task :=
  let seen : Check := fun _ => .done (.ok ⟨true, .null⟩)
  let naming (title : String) : AppletInfo :=
    { Sample.named title (.make 0x10 0x0001) with
      value := some (.int 5), references := Sample.slot "package" }
  let screen : Applet :=
    .flow { id := .unregistered, referents := Sample.slot "package" }
      { kind := .container, selector := some .hitPayload, fields := some ["package"] }
      [.criterion (Sample.named "seen" (.make 0x10 0x0002)) seen]
  ⟨{ title := "Package" },
    Sample.flow .root [screen, .action (naming "announce package") Sample.announce,
      .criterion (naming "package known") seen], rfl, rfl⟩

def packageBatch : Batch := Sample.batch 0 "component_changed" [("package", .null)]

def packageLone : Lone :=
  (obtain World.fresh packageTask ⟨0⟩ none packageBatch).aim none

def packageEnd : Scene := (Summons.run.walk (packageLone.scene packageBatch)).alone.1

/- The event of the sample has a null for its package. The name stands for that null, so the
action has it instead of its declared value, and the criterion is checked with it. -/
theorem nullsResolvePackage :
    World.fresh.slates.Clean ∧
      Moment packageLone packageBatch [] packageEnd (some (.ok (some .completed))) ∧
      packageEnd.run.argument? { id := .unregistered, references := Sample.slot "package" } 0 =
        some .null ∧
      (∃ input, .performing [1] input ∈ packageEnd.journal ∧ input.applet.value = some (.int 5) ∧
        input.arg 0 = some .null) ∧
      ∃ input, .checking [2] input ∈ packageEnd.journal ∧ input.expected = some .null := by
  have clean : World.fresh.slates.Clean := fun a inside => nomatch inside
  have moment : Moment packageLone packageBatch [] packageEnd (some (.ok (some .completed))) :=
    momentAlone .run
  obtain ⟨nulls, -⟩ := nullsResolve clean moment
  refine ⟨clean, moment, (nulls _ 0).mpr ?_, ?_, ?_⟩
  · exact ⟨"package", .obj [("package", .null)], ["package"], 0, rfl, rfl, rfl⟩
  · exact ⟨_, List.mem_of_getElem? (i := 9) rfl, rfl, rfl⟩
  · exact ⟨_, List.mem_of_getElem? (i := 13) rfl, rfl⟩

end Lone
end Automation
