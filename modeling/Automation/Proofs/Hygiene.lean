import Automation.Proofs.Likeness
/-! What pools keep. Whatever has been going on in a process, idle result bodies and runtime frames
are as good as new, at the end of every turn of every call. So a run that is obtained then does what
it would do if the pools were empty. -/
namespace Automation
open Scene

namespace ResultBody

theorem restored (b : ResultBody) : Recyclable.restore b = default := rfl

end ResultBody

namespace Slate

theorem restored (s : Slate) : Recyclable.restore s = default := rfl

end Slate

namespace Pool
variable {α : Type} [Recyclable α] {p : Pool α}

theorem setCapacityClean (clean : p.Clean) (capacity : Nat) : (p.setCapacity capacity).Clean :=
  fun a inside => clean a (List.mem_of_mem_drop inside)

theorem drainClean (p : Pool α) : p.drain.2.Clean := fun _ inside => nomatch inside

end Pool

namespace AppletResult
variable {bodies : Bodies}

theorem releaseClean (clean : bodies.Clean) (r : AppletResult) : (r.release bodies).Clean := by
  cases r with
  | empty successful => exact clean
  | pooled body => exact Pool.giveClean ResultBody.restored clean body

theorem releaseAllClean (clean : bodies.Clean) (results : List AppletResult) :
    (releaseAll results bodies).Clean := by
  induction results generalizing bodies with
  | nil => exact clean
  | cons r rest ih => exact ih (releaseClean clean r)

inductive Makes : (Bodies → AppletResult × Bodies) → Prop where
  | succeeded (returned : Json) : Makes (succeeded returned)
  | succeededWith (returned : Payload) : Makes (succeededWith returned)
  | failed (actual : Json) : Makes (failed actual)
  | failedBy (cause : ApplyError) : Makes (failedBy cause)

theorem makesClean {make : Bodies → AppletResult × Bodies} (makes : Makes make)
    (clean : bodies.Clean) : (make bodies).2.Clean := by
  cases makes with
  | succeeded v | failed v =>
    simp only [succeeded, failed]
    split
    · exact clean
    · exact (Pool.takeClean clean).2
  | succeededWith payload => exact (Pool.takeClean clean).2
  | failedBy cause => exact (Pool.takeClean clean).2

end AppletResult

structure World.Clean (w : World) : Prop where
  bodies : w.bodies.Clean
  slates : w.slates.Clean

theorem World.recycleClean {w : World} (clean : w.Clean) (r : Run) : (w.recycle r).Clean :=
  ⟨AppletResult.releaseAllClean clean.bodies _, Pool.giveClean Slate.restored clean.slates _⟩

namespace Scene

def Tidies (s t : Scene) : Prop := s.world.Clean → t.world.Clean

theorem tidiesTrans (s t u : Scene) (first : s.Tidies t) (second : t.Tidies u) : s.Tidies u :=
  fun clean => second (first clean)

theorem tidiesBodies {s t : Scene} (slates : t.world.slates = s.world.slates)
    (bodies : s.world.bodies.Clean → t.world.bodies.Clean) : s.Tidies t :=
  fun clean => ⟨bodies clean.bodies, slates ▸ clean.slates⟩

theorem makeTidies (s : Scene) {make : Pool ResultBody → AppletResult × Pool ResultBody}
    (makes : AppletResult.Makes make) : s.Tidies (s.makeResult make).2 :=
  tidiesBodies rfl (AppletResult.makesClean makes)

theorem releaseTidies (s : Scene) (results : List AppletResult) : s.Tidies (s.release results) :=
  tidiesBodies rfl fun clean => AppletResult.releaseAllClean clean results

theorem finishTidies (s : Scene) (path : List Nat) (info : AppletInfo) (result : AppletResult) :
    s.Tidies (s.finish path info result) := by
  refine tidiesBodies (congrArg Frame.slates (finishFrame s path info result)) fun clean => ?_
  unfold finish Run.register
  cases result.published? <;> exact AppletResult.releaseAllClean clean _

theorem skipFromTidies (s : Scene) (path : List Nat) (i : Nat) (children : List Applet) :
    s.Tidies (s.skipFrom path i children) := by
  induction children generalizing s i with
  | nil => exact id
  | cons child rest ih => exact ih (s.tell .skipped (path ++ [i]) child.info) (i + 1)

theorem changeTidies {f : Scene → Scene} (step : Change f) (s : Scene) : s.Tidies (f s) := by
  induction step generalizing s with
  | start path info =>
    simp only [start]
    split <;> exact id
  | finish path info result => exact finishTidies s path info result
  | skipFrom path i children => exact skipFromTidies s path i children
  | abandonFlow path children level =>
    have skipped := skipFromTidies s path 0 children
    refine tidiesTrans _ _ _ skipped fun clean => ?_
    exact releaseTidies _ _ (releaseTidies _ _ clean)
  | comp first second ihFirst ihSecond => exact tidiesTrans _ _ _ (ihFirst s) (ihSecond _)
  | _ => exact id

theorem leaveFlowTidies (s : Scene) (spec : FlowSpec) (level : Nat) :
    s.Tidies (s.leaveFlow spec level).2 := by
  have left : s.Tidies (s.exitFlow level).2 :=
    releaseTidies (s.onRun fun r => r.setCursor (r.slate.cursor.exit level)) _
  refine tidiesTrans _ _ _ left ?_
  unfold leaveFlow
  generalize s.exitFlow level = exit
  obtain ⟨l, t⟩ := exit
  dsimp only
  split
  · exact id
  · split
    · split
      · exact fun clean => makeTidies _ (.succeededWith _) (releaseTidies _ _ clean)
      · exact id
    · exact id

theorem actTidies {α : Type} {f : Scene → α × Scene} (step : Act f) (s : Scene) :
    s.Tidies (f s).2 := by
  cases step with
  | beginCheck path info expected | beginAction path info =>
    simp only [beginCheck, beginAction, onRun, foldAllRun]
    exact id
  | endCheck path info outcome =>
    cases outcome with
    | error cause => exact makeTidies _ (.failedBy cause)
    | ok c =>
      simp only [endCheck]
      split
      · exact makeTidies _ (.succeeded c.actual)
      · exact makeTidies _ (.failed c.actual)
  | endAction path outcome =>
    cases outcome with
    | error cause => exact makeTidies _ (.failedBy cause)
    | ok returned => exact makeTidies _ (.succeeded returned)
  | tryWait path info wait =>
    simp only [tryWait]
    split
    · exact makeTidies _ (.succeeded _)
    · exact id
  | enterFlow => exact releaseTidies _ _
  | choose path spec level =>
    simp only [choose]
    split
    · exact id
    · split <;> exact id
  | leaveFlow spec level => exact leaveFlowTidies s spec level
  | passOn level kind => exact releaseTidies _ _

theorem obligesTidies {allowed : Demand → Prop} (s t : Scene) (obliges : s.Obliges allowed t) :
    s.Tidies t := by
  cases obliges with
  | cancel handle demand | global key type init demand => exact tidiesBodies rfl id
  | argument arguments => exact id

end Scene

namespace Walk
variable {α : Type}

theorem builtTidies {allowed : Demand → Prop} {w : Walk α} (built : Built allowed w) (s : Scene) :
    (w s).Guarantees Tidies s :=
  builtGuarantees tidiesTrans (fun _ => id) changeTidies actTidies obligesTidies built s

end Walk

namespace Scene

def unpooled (s : Scene) : Scene :=
  { s with world := { s.world with bodies := Pool.ofCapacity 0, slates := Pool.ofCapacity 0 } }

theorem unpooledSame {s t : Scene} (same : s.unpooled = t.unpooled) :
    s.run = t.run ∧ s.occasion = t.occasion ∧ s.journal = t.journal ∧
      s.world.handles = t.world.handles ∧ s.world.globals = t.world.globals := by
  refine ⟨congrArg (·.run) same, congrArg (·.occasion) same, congrArg (·.journal) same, ?_, ?_⟩
  · exact congrArg (·.world.handles) same
  · exact congrArg (·.world.globals) same

theorem skipFromUnpooled (s : Scene) (path : List Nat) (i : Nat) (children : List Applet) :
    (s.skipFrom path i children).unpooled = (s.unpooled.skipFrom path i children).unpooled := by
  induction children generalizing s i with
  | nil => rfl
  | cons child rest ih =>
    rw [skipFrom, skipFrom, ih, ih (s.unpooled.tell .skipped (path ++ [i]) child.info)]
    rfl

theorem finishUnpooled (s : Scene) (path : List Nat) (info : AppletInfo) (result : AppletResult) :
    (s.finish path info result).unpooled = (s.unpooled.finish path info result).unpooled := by
  unfold finish Run.register
  cases result.published? <;> rfl

theorem changeUnpooled {f : Scene → Scene} (step : Change f) : Blind unpooled f := by
  induction step with
  | start path info =>
    intro s
    cases resuming : s.run.slate.cursor.resuming <;> simp only [start, unpooled, resuming] <;> rfl
  | finish path info result => exact fun s => finishUnpooled s path info result
  | skipFrom path i children => exact fun s => skipFromUnpooled s path i children
  | abandonFlow path children level =>
    intro s
    have skipped := skipFromUnpooled s path 0 children
    simp only [abandonFlow]
    generalize s.skipFrom path 0 children = t at skipped
    generalize s.unpooled.skipFrom path 0 children = t' at skipped
    obtain ⟨run, occasion, journal, handles, globals⟩ := unpooledSame skipped
    simp only [exitFlow, release, onRun, unpooled, run, occasion, journal, handles, globals]
  | comp first second ihFirst ihSecond => exact ihFirst.comp ihSecond
  | _ => exact fun s => rfl

theorem concludeUnpooled (path : List Nat) (info : AppletInfo) (e : Executor) (answer : e.Answer) :
    Blind unpooled (e.conclude path info answer) := by
  intro s
  have finished (t : Scene) (r : AppletResult) {t' : Scene} {r' : AppletResult} (same : r = r')
      (alike : t.unpooled = t'.unpooled) :
      (t.finish path info r).unpooled = (t'.finish path info r').unpooled := by
    rw [finishUnpooled, same, alike, ← finishUnpooled]
  cases e with
  | check =>
    cases answer with
    | error cause => exact finished _ _ rfl rfl
    | ok c =>
      by_cases matched : (c.matched != info.inverted) = true
      · simp only [Executor.conclude, endCheck, matched, if_true]
        exact finished _ _ ((succeededResult _ _).trans (succeededResult _ _).symm) rfl
      · simp only [Executor.conclude, endCheck, matched]
        exact finished _ _ ((failedResult _ _).trans (failedResult _ _).symm) rfl
  | action =>
    cases answer with
    | error cause => exact finished _ _ rfl rfl
    | ok returned =>
      exact finished _ _ ((succeededResult _ _).trans (succeededResult _ _).symm) rfl

theorem tryWaitUnpooled (path : List Nat) (info : AppletInfo) (wait : Wait) :
    Unaware unpooled fun s => s.tryWait path info wait := by
  constructor
  · intro s
    simp only [tryWait, unpooled]
    split
    · exact congrArg some ((succeededResult _ _).trans (succeededResult _ _).symm)
    · rfl
  · intro s
    simp only [tryWait, unpooled]
    split <;> rfl

theorem chooseUnpooled (path : List Nat) (spec : FlowSpec) (level : Nat) :
    Unaware unpooled fun s => s.choose path spec level := by
  constructor
  · intro s
    simp only [choose, unpooled]
    split
    · rfl
    · split <;> rfl
  · intro s
    simp only [choose, unpooled]
    split
    · rfl
    · split <;> rfl

theorem leaveFlowUnpooled (spec : FlowSpec) (level : Nat) :
    Unaware unpooled fun s => s.leaveFlow spec level := by
  have left (s : Scene) : (s.unpooled.exitFlow level).1 = (s.exitFlow level).1 := rfl
  have aims (s : Scene) : (s.unpooled.exitFlow level).2.run.slate.target =
      (s.exitFlow level).2.run.slate.target := rfl
  constructor <;> intro s <;> simp only [leaveFlow, left, aims] <;>
    cases (s.exitFlow level).1.saved with
    | none => rfl
    | some old =>
      cases (s.exitFlow level).2.run.slate.target with
      | none => rfl
      | some target =>
        dsimp only
        split <;> rfl

theorem unpooledForgetful : Forgetful unpooled where
  task s := rfl
  occasion s := rfl
  globals s := rfl
  active s := rfl
  waits s := rfl
  resuming s := rfl
  levels s := rfl
  expected s info := rfl
  resumes s := rfl
  cancels handle s := rfl
  keeps globals s := rfl
  caches arguments s := rfl
  change := changeUnpooled
  beginCheck path info expected := by
    constructor <;> intro s <;> simp only [beginCheck, onRun, foldAllRun] <;> rfl
  beginAction path info := by
    constructor <;> intro s <;> simp only [beginAction, onRun, foldAllRun] <;> rfl
  concludes := concludeUnpooled
  tryWait := tryWaitUnpooled
  enterFlow := ⟨fun s => rfl, fun s => rfl⟩
  choose := chooseUnpooled
  passOn level kind := ⟨fun s => rfl, fun s => rfl⟩
  leaves path info spec level := by
    intro s
    obtain ⟨value, blind⟩ := leaveFlowUnpooled spec level
    dsimp only
    rw [value s, finishUnpooled, blind s, ← finishUnpooled]

end Scene
end Automation
