import Automation.Applet.Criterion
import Automation.Proofs.Owner
import Automation.Proofs.Table
/-! Patterns that are read once. Pattern criteria of one identity share a table of the patterns
they have read, the refused ones included, and it makes no difference to them: as long as nothing
else is kept under their identities, each is checked as if it were the first on its occasion. -/
namespace Automation

/- The outcome of a pattern criterion that reads its own pattern and searches its own field. -/
def Check.searched (field : String) (input : CheckInput) : Except ApplyError Checked := do
  let (target, text) ← patternOperands input
  match Pattern.read text with
  | .error refusal => throw (.invalidArgument 0 refusal.message)
  | .ok p =>
    let actual := (target.field? field).getD .null
    return ⟨actual.text?.any p.occursIn, actual⟩

def GenuinePatterns (table : Table String Stored.Compiled) : Prop :=
  ∀ text compiled, table.get? text = some compiled → compiled = Pattern.read text

theorem genuineEmpty : GenuinePatterns Table.empty := fun text compiled entered => by
  rw [Table.getEmpty] at entered
  cases entered

theorem genuineRead {table : Table String Stored.Compiled} (genuine : GenuinePatterns table)
    (text : String) : GenuinePatterns (table.insert text (Pattern.read text)) := by
  intro other compiled entered
  rcases Table.insertFound entered with ⟨rfl, rfl⟩ | old
  · rfl
  · exact genuine other compiled old

namespace Arguments

def Genuine (args : Arguments) (id : AppletId) : Prop :=
  ∀ cell, args.cells.get? id = some cell →
    ∃ table : Table String Stored.Compiled, cell = ⟨.patterns, table⟩ ∧ GenuinePatterns table

variable {args : Arguments} {id : AppletId}

theorem genuineNone (absent : args.cells.get? id = none) : args.Genuine id := by
  intro cell found
  rw [absent] at found
  cases found

theorem genuineSome {table : Table String Stored.Compiled} (genuine : GenuinePatterns table)
    (kept : args.cells.get? id = some ⟨.patterns, table⟩) : args.Genuine id := by
  intro cell found
  cases kept.symm.trans found
  exact ⟨table, rfl, genuine⟩

theorem obtainOther {other : AppletId} (apart : other ≠ id) (type : Stored)
    (init : Unit → type.Value) :
    (args.obtain other type init).2.cells.get? id = args.cells.get? id := by
  unfold obtain Registry.getOrInit
  cases args.cells.get? other with
  | some cell =>
    dsimp only
    cases Registry.readAs cell type <;> rfl
  | none => exact (Table.getInsert _ _ _ _).trans (if_neg apart)

theorem obtainGenuine (genuine : args.Genuine id) :
    ∃ table : Table String Stored.Compiled, GenuinePatterns table ∧
      (args.obtain id .patterns fun _ => Table.empty).1 = .ok table ∧
      (args.obtain id .patterns fun _ => Table.empty).2.cells.get? id = some ⟨.patterns, table⟩ := by
  unfold obtain Registry.getOrInit
  cases found : args.cells.get? id with
  | some cell =>
    obtain ⟨table, rfl, read⟩ := genuine cell found
    have same : Registry.readAs (⟨.patterns, table⟩ : Cell Stored.Value) .patterns = .ok table := by
      rw [Registry.readAs, Cell.asSelf]
    exact ⟨table, read, by simp only [same], by simpa only [same] using found⟩
  | none => exact ⟨Table.empty, genuineEmpty, rfl, (Table.getInsert _ _ _ _).trans (if_pos rfl)⟩

theorem patternOther {other : AppletId} (apart : other ≠ id) (text : String) :
    (args.pattern other text).2.cells.get? id = args.cells.get? id := by
  have made : (args.obtain other .patterns fun _ => Table.empty).2.cells.get? id =
      args.cells.get? id := obtainOther apart .patterns _
  unfold pattern
  generalize args.obtain other .patterns (fun _ => Table.empty) = obtained at made ⊢
  obtain ⟨error | table, args'⟩ := obtained
  · exact made
  · dsimp only
    cases table.get? text with
    | some compiled => exact made
    | none => exact (Table.getInsert _ _ _ _).trans ((if_neg apart).trans made)

theorem patternGenuine (genuine : args.Genuine id) (text : String) :
    (args.pattern id text).1 = .ok (Pattern.read text) ∧ (args.pattern id text).2.Genuine id := by
  obtain ⟨table, read, made, kept⟩ := obtainGenuine genuine
  unfold pattern
  generalize args.obtain id .patterns (fun _ => Table.empty) = obtained at made kept ⊢
  obtain ⟨result, args'⟩ := obtained
  dsimp only at made kept
  subst made
  dsimp only
  cases entered : table.get? text with
  | some compiled =>
    exact ⟨congrArg Except.ok (read text compiled entered), genuineSome read kept⟩
  | none =>
    refine ⟨rfl, genuineSome (genuineRead read text) ?_⟩
    exact (Table.getInsert _ _ _ _).trans (if_pos rfl)

end Arguments

namespace Scene

def withArguments (s : Scene) (arguments : Arguments) : Scene :=
  { s with occasion := { s.occasion with arguments } }

end Scene

inductive Use where
  | search (field : String) (input : CheckInput)
  | keep (id : AppletId) (type : Stored) (init : Unit → type.Value)
  | read (id : AppletId) (text : String)

namespace Use

def id : Use → AppletId
  | search _ input => input.applet.id
  | keep id .. | read id _ => id

def searches : Use → Bool
  | search .. => true
  | _ => false

def outcome? : Use → Option (Except ApplyError Checked)
  | search field input => some (Check.searched field input)
  | _ => none

def walk : Use → Walk (Option (Except ApplyError Checked))
  | search field input => do return some (← Walk.perform (Check.pattern field input))
  | keep id type init => Walk.perform (.argument id type init fun _ => .done none)
  | read id text => Walk.perform (.pattern id text fun _ => .done none)

def walkAll : List Use → Walk (List (Option (Except ApplyError Checked)))
  | [] => return []
  | u :: rest => do
    let outcome ← u.walk
    let outcomes ← walkAll rest
    return outcome :: outcomes

end Use

theorem patternSearched {s : Scene} {input : CheckInput}
    (genuine : s.occasion.arguments.Genuine input.applet.id) (field : String) :
    ∃ arguments, arguments.Genuine input.applet.id ∧
      (∀ id, input.applet.id ≠ id →
        arguments.cells.get? id = s.occasion.arguments.cells.get? id) ∧
      Walk.perform (Check.pattern field input) s =
        .done (s.withArguments arguments) (.ok (Check.searched field input)) := by
  unfold Check.pattern Check.searched
  cases Check.patternOperands input with
  | error e => exact ⟨s.occasion.arguments, genuine, fun id apart => rfl, rfl⟩
  | ok operands =>
    obtain ⟨target, text⟩ := operands
    obtain ⟨read, kept⟩ := Arguments.patternGenuine genuine text
    refine ⟨_, kept, fun id apart => Arguments.patternOther apart text, ?_⟩
    have own : Check.patternOutcome target field (.ok (Pattern.read text)) =
        match Pattern.read text with
        | .error refusal => throw (.invalidArgument 0 refusal.message)
        | .ok p =>
          let actual := (target.field? field).getD .null
          return ⟨actual.text?.any p.occursIn, actual⟩ := by
      cases Pattern.read text <;> rfl
    dsimp only [Walk.perform]
    rw [read, own]
    rfl

theorem useSearched {u : Use} {s : Scene}
    (genuine : u.searches → s.occasion.arguments.Genuine u.id) :
    ∃ arguments, u.walk s = .done (s.withArguments arguments) (.ok u.outcome?) ∧
      ∀ id, s.occasion.arguments.Genuine id → u.searches ∨ u.id ≠ id → arguments.Genuine id := by
  have kept {arguments : Arguments} {id : AppletId}
      (same : arguments.cells.get? id = s.occasion.arguments.cells.get? id)
      (before : s.occasion.arguments.Genuine id) : arguments.Genuine id := by
    unfold Arguments.Genuine
    rw [same]
    exact before
  cases u with
  | search field input =>
    obtain ⟨arguments, own, others, done⟩ := patternSearched (genuine rfl) field
    refine ⟨arguments, ?_, fun id before _ => ?_⟩
    · change (Walk.perform (Check.pattern field input) s).bind _ = _
      rw [done]
      rfl
    · by_cases same : input.applet.id = id
      · exact same ▸ own
      · exact kept (others id same) before
  | keep id type init =>
    refine ⟨_, rfl, fun other before apart => ?_⟩
    exact kept (Arguments.obtainOther (apart.resolve_left (by simp [Use.searches])) type init) before
  | read id text =>
    refine ⟨_, rfl, fun other before apart => ?_⟩
    exact kept (Arguments.patternOther (apart.resolve_left (by simp [Use.searches])) text) before

/- Nothing but searches goes by the identities that are searched under. -/
def Use.Apart (uses : List Use) : Prop :=
  ∀ u ∈ uses, ∀ v ∈ uses, u.searches → ¬ v.searches → v.id ≠ u.id

theorem usesSearched {uses : List Use} {s : Scene} (apart : Use.Apart uses)
    (genuine : ∀ u ∈ uses, u.searches → s.occasion.arguments.Genuine u.id) :
    ∃ arguments, Use.walkAll uses s =
      .done (s.withArguments arguments) (.ok (uses.map Use.outcome?)) := by
  induction uses generalizing s with
  | nil => exact ⟨s.occasion.arguments, rfl⟩
  | cons u rest ih =>
    obtain ⟨arguments, done, kept⟩ := useSearched (genuine u List.mem_cons_self)
    have later : ∀ v ∈ rest, v.searches → arguments.Genuine v.id := by
      intro v inside searches
      have behind := List.mem_cons_of_mem u inside
      refine kept v.id (genuine v behind searches) ?_
      by_cases own : u.searches = true
      · exact .inl own
      · exact .inr (apart v behind u List.mem_cons_self searches own)
    obtain ⟨arguments', rested⟩ := ih (s := s.withArguments arguments)
      (fun v inside w inside' => apart v (List.mem_cons_of_mem u inside) w
        (List.mem_cons_of_mem u inside')) later
    refine ⟨arguments', ?_⟩
    change (u.walk s).bind _ = _
    rw [done]
    change (Use.walkAll rest (s.withArguments arguments)).bind _ = _
    rw [rested]
    rfl

/- Whatever is checked before on the same occasion, by other criteria of its identity too, and
whatever else is kept there under other identities, a pattern criterion has the outcome that it
has on a fresh occasion: its own pattern is read, and its own field searched. So the order of the
checks makes no difference to their outcomes. -/
theorem patternsTransparent {uses : List Use} {s : Scene} (apart : Use.Apart uses)
    (unused : ∀ u ∈ uses, u.searches → s.occasion.arguments.cells.get? u.id = none) :
    ∃ outcomes arguments,
      Use.walkAll uses s = .done (s.withArguments arguments) (.ok outcomes) ∧
      outcomes.length = uses.length ∧
      (∀ (i : Nat) field input, uses[i]? = some (.search field input) →
        outcomes[i]? = some (some (Check.searched field input)) ∧
        ∀ t : Scene, t.occasion.arguments = Registry.empty → ∃ kept,
          Walk.perform (Check.pattern field input) t =
            .done (t.withArguments kept) (.ok (Check.searched field input))) ∧
      ∀ uses', uses'.Perm uses → ∃ outcomes' arguments',
        Use.walkAll uses' s = .done (s.withArguments arguments') (.ok outcomes') ∧
          (uses'.zip outcomes').Perm (uses.zip outcomes) := by
  have genuine {uses' : List Use} (same : uses'.Perm uses) :
      ∀ u ∈ uses', u.searches → s.occasion.arguments.Genuine u.id := fun u inside searches =>
    Arguments.genuineNone (unused u (same.subset inside) searches)
  obtain ⟨arguments, done⟩ := usesSearched apart (genuine .rfl)
  refine ⟨_, arguments, done, List.length_map _, fun i field input here => ⟨?_, ?_⟩, ?_⟩
  · rw [List.getElem?_map, here]
    rfl
  · intro t fresh
    have empty : t.occasion.arguments.cells.get? input.applet.id = none := by
      rw [fresh]
      exact Table.getEmpty _
    obtain ⟨kept, -, -, done⟩ := patternSearched (Arguments.genuineNone empty) field
    exact ⟨kept, done⟩
  · intro uses' same
    have apart' : Use.Apart uses' := fun u inside v inside' =>
      apart u (same.subset inside) v (same.subset inside')
    obtain ⟨arguments', done'⟩ := usesSearched apart' (genuine same)
    refine ⟨_, arguments', done', ?_⟩
    rw [← List.map_prod_left_eq_zip, ← List.map_prod_left_eq_zip]
    exact same.map _

def packageUses : List Use :=
  let search (pattern : String) : Use := .search "package"
    { applet := { id := .make 0x10 0x0003 }, target := some (.obj [("package", .str "com.b.app")])
      expected := some (.str pattern), batch := Lone.launcherBatch }
  [search "^com[.]b", search "(", .keep (.make 0x10 0x0001) .text fun _ => "kept", search "^com[.]b"]

theorem patternsTransparentPackage :
    let s := Lone.launcherLone.scene Lone.launcherBatch
    Use.Apart packageUses ∧
      (∀ u ∈ packageUses, u.searches → s.occasion.arguments.cells.get? u.id = none) ∧
      ∃ outcomes arguments,
        Use.walkAll packageUses s = .done (s.withArguments arguments) (.ok outcomes) ∧
        outcomes[0]? = some (some (.ok ⟨true, .str "com.b.app"⟩)) ∧
        outcomes[1]? = some (some (.error (.invalidArgument 0 "regex parse error"))) ∧
        outcomes[3]? = some (some (.ok ⟨true, .str "com.b.app"⟩)) := by
  have apart : Use.Apart packageUses := by
    unfold Use.Apart
    decide
  have unused : ∀ u ∈ packageUses, u.searches →
      (Lone.launcherLone.scene Lone.launcherBatch).occasion.arguments.cells.get? u.id = none :=
    fun u inside searches => Table.getEmpty _
  obtain ⟨outcomes, arguments, done, -, own, -⟩ := patternsTransparent apart unused
  refine ⟨apart, unused, outcomes, arguments, done, ?_, ?_, ?_⟩
  · exact (own 0 _ _ rfl).1.trans (by decide +kernel)
  · exact (own 1 _ _ rfl).1.trans rfl
  · exact (own 3 _ _ rfl).1.trans (by decide +kernel)

end Automation
