import Automation.Proofs.Faithful
import Automation.Proofs.Scope
/-! Names stand for what was published last. At every point of a run a name stands for what the
most recent applet that published under it had to publish, and an executor is given its arguments
by the names as they stand when its applet is started. -/
namespace Automation

namespace Slots

theorem slotHighest {m : Slots} {name : String} {slot : Nat} (found : m.slot? name = some slot) :
    (slot, name) ∈ m.rows ∧ ∀ other, (other, name) ∈ m.rows → other ≤ slot := by
  obtain ⟨⟨slot, name'⟩, row, rfl⟩ := Option.map_eq_some_iff.mp found
  obtain ⟨same, behind, before, split, last⟩ := List.find?_eq_some_iff_append.mp row
  obtain rfl : name' = name := beq_iff_eq.mp same
  have rows : m.rows = before.reverse ++ (slot, name') :: behind.reverse := by
    rw [← List.reverse_reverse m.rows, split]
    simp
  have ascending := m.ascending
  rw [rows] at ascending
  refine ⟨by simp [rows], fun other inside => ?_⟩
  rw [rows, List.mem_append, List.mem_cons] at inside
  rcases inside with inside | same | inside
  · exact Nat.le_of_lt ((List.pairwise_append.mp ascending).2.2 _ inside _ List.mem_cons_self)
  · exact Nat.le_of_eq (congrArg Prod.fst same)
  · have differs := last _ (List.mem_reverse.mp inside)
    simp at differs

end Slots

def Entry.childResult? (path : List Nat) : Entry → Option AppletResult
  | notice _ .terminated p _ run =>
    if p ≠ [] ∧ p.dropLast = path then run.slate.result else none
  | _ => none

namespace Journal

def lastResult (j : Journal) (path : List Nat) : Option AppletResult :=
  j.reverse.findSome? (Entry.childResult? path)

def argument? (j : Journal) (info : AppletInfo) (slot : Nat) : Option Json :=
  (info.references.name? slot).bind fun name => (j.binding? name).bind Binding.value?

def arguments (j : Journal) (info : AppletInfo) : List (Option Json) :=
  (List.range info.arity).map (j.argument? info)

def expected? (j : Journal) (info : AppletInfo) : Option (Option Json) :=
  if info.references.contains 0 then (j.argument? info 0).map some else some info.value

end Journal

section
variable {run : Run} {journal own : Journal} {e : Entry} {path : List Nat}

theorem reflectsArgument (reflects : run.Reflects journal) :
    run.argument? = journal.argument? := by
  funext info slot
  simp only [Run.argument?, Journal.argument?, reflects.referents, namesGet]

theorem childResultPath {r : AppletResult} (result : e.childResult? path = some r) :
    path <+: e.path ∧ e.path ≠ path := by
  cases e with
  | notice heard phase p info run =>
    cases phase with
    | terminated =>
      obtain ⟨⟨deep, parent⟩, -⟩ := Option.ite_none_right_eq_some.mp result
      subst parent
      refine ⟨List.dropLast_prefix p, fun same => ?_⟩
      have shorter : p.length = p.length - 1 := by
        rw [← List.length_dropLast, ← same]
        rfl
      have positive := List.length_pos_iff.mpr deep
      omega
    | started | skipped => cases result
  | _ => cases result

theorem lastAppend (j j' : Journal) (path : List Nat) :
    Journal.lastResult (j ++ j') path = (j'.lastResult path).or (j.lastResult path) := by
  unfold Journal.lastResult
  rw [List.reverse_append, List.findSome?_append]

theorem lastNone (other : ∀ e ∈ journal, e.path = path ∨ ¬ path <+: e.path) :
    journal.lastResult path = none := by
  refine List.findSome?_eq_none_iff.mpr fun e inside => ?_
  refine Option.eq_none_iff_forall_ne_some.mpr fun r result => ?_
  obtain ⟨below, deeper⟩ := childResultPath result
  exact (other e (List.mem_reverse.mp inside)).elim deeper fun apart => apart below

theorem lastOwns (owns : journal.Owns path own) :
    journal.lastResult path = own.lastResult path := by
  obtain ⟨before, after, rfl, apart⟩ := owns
  rw [List.forall_mem_append] at apart
  rw [lastAppend, lastAppend, lastNone fun e inside => .inr (apart.2 e inside),
    lastNone fun e inside => .inr (apart.1 e inside)]
  simp

variable {target : Option Json} {a : Applet} {r : AppletResult}

theorem chronicleEnds (chronicle : Chronicle target path a journal (some r)) :
    ∃ rest heard run, journal = rest ++ [.notice heard .terminated path a.info run] ∧
      Ended target r run := by
  cases chronicle with
  | leaf started deed ended | unavailable started selector missing skips ended
  | flow opens inner ended => exact ⟨_, _, _, rfl, ended⟩

theorem chaptersResult {last out : Option AppletResult} {i : Nat} {children : List Applet}
    (chapters : Chapters target path last i children journal (some out)) :
    (journal.lastResult path).or last = out := by
  induction children generalizing last i journal with
  | nil =>
    cases chapters
    rfl
  | cons child rest ih =>
    cases chapters with
    | skipped later =>
      rw [← List.singleton_append, lastAppend, ← ih later]
      exact congrArg (Option.or · last) Option.or_none
    | visited inner later =>
      obtain ⟨front, heard, run, rfl, ended⟩ := chronicleEnds inner
      have here : Journal.lastResult [.notice heard .terminated (path ++ [i]) child.info run] path =
          run.slate.result := by simp [Journal.lastResult, Entry.childResult?]
      rw [lastAppend, lastAppend, ← ih later, here, ended.result]
      simp

end

/- How an applet at this path that ends on this batch comes to its result: a leaf by what it does, a
flow without a target by failing, and any other flow from the result of its last child, at the
target that it has chosen. -/
inductive Produced (journal : Journal) (path : List Nat) (batch : Batch) :
    Applet → AppletResult → Prop where
  | leaf {a heard run part r} (started : .notice heard .started path a.info run ∈ journal)
      (deed : Deed path run batch a part (some r)) (inside : part ⊆ journal) :
      Produced journal path batch a r
  | unavailable {info spec children select heard run}
      (started : .notice heard .started path info run ∈ journal)
      (selector : spec.selector = some select) (missing : select run.batch = none) :
      Produced journal path batch (.flow info spec children) (.empty false)
  | flow {info spec children aim}
      (chosen : ∀ select, spec.selector = some select →
        ∃ v, aim = some v ∧ .selected path v ∈ journal) :
      Produced journal path batch (.flow info spec children)
        (spec.result aim (journal.lastResult path))

section
variable {target : Option Json} {a : Applet} {journal own : Journal} {path : List Nat}
  {r : Option AppletResult} {result : AppletResult}

theorem chronicleProduced (chronicle : Chronicle target path a own (some result))
    (owns : journal.Owns path own) :
    ∃ heard run, .notice heard .terminated path a.info run ∈ journal ∧
      Produced journal path run.batch a result := by
  have last := lastOwns owns
  have within := (ownsInfix owns).subset
  cases chronicle with
  | leaf started deed ended =>
    refine ⟨_, _, within (List.mem_append_right _ List.mem_cons_self),
      .leaf (within List.mem_cons_self) deed fun e inside => ?_⟩
    exact within (by simp [inside])
  | unavailable started selector missing skips ended =>
    exact ⟨_, _, within (List.mem_append_right _ List.mem_cons_self),
      .unavailable (within List.mem_cons_self) selector missing⟩
  | @flow _ _ info _ _ _ _ _ last' heard run opens inner ended =>
    have ending : Journal.lastResult [.notice heard .terminated path info run] path = none :=
      lastNone (List.forall_mem_singleton.mpr (.inl rfl))
    have same : journal.lastResult path = last' := by
      rw [last, lastAppend, lastAppend, ending,
        lastNone fun e inside => .inl (opensPath opens inside).1, ← chaptersResult inner]
      simp
    rw [← same]
    refine ⟨heard, run, within (List.mem_append_right _ List.mem_cons_self),
      .flow fun select selector => ?_⟩
    cases opens with
    | plain started plain =>
      rw [plain] at selector
      cases selector
    | chosen started selector' selected => exact ⟨_, rfl, within (by simp)⟩

variable {s : Scene} {run : Run} {info : AppletInfo} {heard : Option Observer}

theorem deedNamed {e : Entry} {part rest : Journal} (faithful : s.Faithful)
    (owns : s.journal.Owns path (.notice heard .started path info run :: (e :: part) ++ rest)) :
    ∃ before after, s.journal = before ++ e :: after ∧ run.Reflects before := by
  obtain ⟨front, back, split, -⟩ := owns
  refine ⟨front ++ [.notice heard .started path info run], part ++ rest ++ back, by simp [split],
    faithful.told _ _ _ _ _ _ ?_⟩
  exact ⟨e :: part ++ rest ++ back, by simp [split]⟩

theorem checkingNamed (faithful : s.Faithful) (chronicle : Chronicle target [] a s.journal r)
    {input : CheckInput} (inside : .checking path input ∈ s.journal) :
    ∃ before after, s.journal = before ++ .checking path input :: after ∧
      Journal.expected? before input.applet = some input.expected := by
  obtain ⟨b, aim, own, r', -, owns, what, -⟩ := entryScoped chronicle inside rfl
  cases what with
  | deed shape started deed within =>
    obtain ⟨same, -, found, part, rfl⟩ := deedChecking deed within
    subst shape
    obtain ⟨before, after, split, reflects⟩ := deedNamed faithful owns
    refine ⟨before, after, split, ?_⟩
    rw [same, ← found, Journal.expected?, Run.expected?, reflectsArgument reflects]

theorem performingNamed (faithful : s.Faithful) (chronicle : Chronicle target [] a s.journal r)
    {input : ActionInput} (inside : .performing path input ∈ s.journal) :
    ∃ before after, s.journal = before ++ .performing path input :: after ∧
      input.args = Journal.arguments before input.applet := by
  obtain ⟨b, aim, own, r', -, owns, what, -⟩ := entryScoped chronicle inside rfl
  cases what with
  | deed shape started deed within =>
    obtain ⟨same, -, args, part, rfl⟩ := deedPerforming deed within
    subst shape
    obtain ⟨before, after, split, reflects⟩ := deedNamed faithful owns
    refine ⟨before, after, split, ?_⟩
    rw [same, args, Journal.arguments, Run.arguments, reflectsArgument reflects]

theorem endedProduced (chronicle : Chronicle target [] a journal r)
    (inside : .notice heard .terminated path info run ∈ journal) :
    ∃ b result, a.at? path = some b ∧ b.info = info ∧ run.slate.result = some result ∧
      Produced journal path run.batch b result := by
  obtain ⟨q, b, aim, own, r', same, held, low⟩ := chronicleLocated chronicle inside rfl
  rw [List.nil_append] at same
  subst same
  cases chronicleOwn low.chronicle held rfl with
  | ended ended last =>
    subst last
    obtain ⟨heard', run', inside', produced⟩ := chronicleProduced low.chronicle low.owns
    cases uniqueSame (chronicleUnique chronicle) inside inside' rfl rfl
    exact ⟨b, _, low.located, rfl, ended.result, produced⟩
  | deed shape started deed within => cases deed <;> simp at within

end

namespace Lone

theorem bindingHighest {e : Entry} {name : String} {b : Binding}
    (found : e.binding? name = some b) :
    ∃ slots, e.published? = some (slots, b.payload) ∧ (b.slot, name) ∈ slots.rows ∧
      ∀ other, (other, name) ∈ slots.rows → other ≤ b.slot := by
  obtain ⟨⟨slots, payload⟩, published, bound⟩ := Option.bind_eq_some_iff.mp found
  obtain ⟨slot, slot', rfl⟩ := Option.map_eq_some_iff.mp bound
  exact ⟨slots, published, Slots.slotHighest slot'⟩

/- At every moment of a run, and at every notice in its course, the names are those that come about
when applet after applet ends and a successful one with a payload publishes it. So a name stands
for what was published under it last, in the highest slot if there are several, and for nothing
if nothing was; and the executors have been given their arguments by the names that stood when
their applets were started. -/
theorem namesResolve {world : World} (clean : world.slates.Clean) {task : Task} {handle : Handle}
    {observer : Option Observer} {target : Option Json} {first : Batch} {batches : List Batch}
    {s : Scene} {r : Option (Except Stop (Option Outcome))}
    (moment : Moment ((obtain world task handle observer first).aim target) first batches s r) :
    s.run.slate.referents = s.journal.names ∧
    (∀ info slot, s.run.argument? info slot = s.journal.argument? info slot) ∧
    (∀ before heard phase path info run,
      before ++ [.notice heard phase path info run] <+: s.journal →
        run.slate.referents = Journal.names (before ++ [.notice heard phase path info run]) ∧
        ∀ info' slot, run.argument? info' slot =
          Journal.argument? (before ++ [.notice heard phase path info run]) info' slot) ∧
    (∀ path input, .checking path input ∈ s.journal → ∃ before after,
      s.journal = before ++ .checking path input :: after ∧
        Journal.expected? before input.applet = some input.expected) ∧
    (∀ path input, .performing path input ∈ s.journal → ∃ before after,
      s.journal = before ++ .performing path input :: after ∧
        input.args = Journal.arguments before input.applet) ∧
    (∀ heard path info run, .notice heard .terminated path info run ∈ s.journal →
      ∃ b result, task.tree.at? path = some b ∧ b.info = info ∧ run.slate.result = some result ∧
        Produced s.journal path run.batch b result) ∧
    ∀ e ∈ s.journal, ∀ name b, e.binding? name = some b →
      ∃ slots, e.published? = some (slots, b.payload) ∧ (b.slot, name) ∈ slots.rows ∧
        ∀ other, (other, name) ∈ slots.rows → other ≤ b.slot := by
  have faithful := momentFaithful clean moment
  obtain ⟨r', chronicle⟩ := momentChronicle clean moment
  refine ⟨faithful.now.referents, fun info slot => ?_, ?_,
    fun path input => checkingNamed faithful chronicle,
    fun path input => performingNamed faithful chronicle,
    fun heard path info run => endedProduced chronicle, fun e _ name b => bindingHighest⟩
  · rw [reflectsArgument faithful.now]
  · intro before heard phase path info run told
    have reflects := faithful.told before heard phase path info run told
    exact ⟨reflects.referents, fun info' slot => by rw [reflectsArgument reflects]⟩

theorem namesResolveLauncher :
    World.fresh.slates.Clean ∧
      Moment launcherLone launcherBatch launcherBatches launcherEnd
        (some (.ok (some .completed))) ∧
      let consumer (name : String) : AppletInfo :=
        { id := .unregistered, references := Sample.slot name }
      launcherEnd.run.argument? (consumer "window") 0 =
          some (.record [("title", .str "Settings")]) ∧
        launcherEnd.run.argument? (consumer "battery_level") 0 = none := by
  have clean : World.fresh.slates.Clean := fun a inside => nomatch inside
  obtain ⟨-, resolves, -⟩ := namesResolve clean launcherMoment
  refine ⟨clean, launcherMoment, ?_, ?_⟩
  · exact (resolves _ 0).trans rfl
  · exact (resolves _ 0).trans rfl

end Lone
end Automation
