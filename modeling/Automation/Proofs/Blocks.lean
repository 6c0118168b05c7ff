import Automation.Proofs.Branches
/-! Blocks and the guards they run for. A block runs only behind a guard that has succeeded, or a
catch-all, and nothing that stands between the two is evaluated. But further members of the chain
may stand there that have been skipped, so the member nearest before the block need not be the one
that it runs for. -/
namespace Automation

def Applet.grants (a : Applet) (r : AppletResult) : Bool :=
  a.flowKind?.any fun k => k == .otherwise || (k.isGuard && r.isSuccessful)

def Applet.follows (a : Applet) : Prop :=
  a.flowKind? = some .elseIf ∨ a.flowKind? = some .otherwise

def decider? (children : List Applet) (d : Nat) : Option Nat :=
  (List.range d).reverse.find? fun k =>
    (children[k]?).any fun c => c.flowKind?.any FlowKind.steersChain

/- The nearest guard or catch-all before the block at place `d` has been evaluated, and lets the
block run. -/
def OwnGuard (path : List Nat) (children : List Applet) (d : Nat) (ts : List Told) : Prop :=
  ∃ g guard r, decider? children d = some g ∧ children[g]? = some guard ∧
    .ended (path ++ [g]) r ∈ ts ∧ guard.grants r = true

/- Only skipped members stand between the block at place `i + k` and the guard that it runs for. -/
inductive Granted (path : List Nat) (i : Nat) (children : List Applet) (k : Nat) (ts : List Told) :
    Prop where
  | mk {before guard members block rest r}
      (split : children = before ++ guard :: (members ++ block :: rest))
      (place : k = before.length + 1 + members.length) (grants : guard.grants r = true)
      (follow : ∀ c ∈ members, c.follows)
      (told : .ended (path ++ [i + before.length]) r ::
        skips path (i + before.length + 1) members ++ [.started (path ++ [i + k])] <:+: ts)

section
variable {path : List Nat} {i k : Nat} {children rest : List Applet} {child block : Applet}
  {ts us : List Told} {mode : Mode} {chain : Chain} {last : Option AppletResult}
  {out : Option (Option AppletResult)}

theorem afterMatched {kind : Option FlowKind} {success : Bool}
    (matched : Chain.after kind success = .matched) :
    kind.any (fun k => k == .otherwise || (k.isGuard && success)) = true := by
  cases kind with
  | none => cases matched
  | some kind => cases kind <;> cases success <;> first | rfl | cases matched

theorem matchedSkip {kind : Option FlowKind} (skip : Chain.matched.plan kind = .skip) :
    kind = some .elseIf ∨ kind = some .otherwise := by
  cases kind with
  | none => cases skip
  | some kind => cases kind <;> first | exact .inl rfl | exact .inr rfl | cases skip

theorem blockMatched (own : block.flowKind? = some .block)
    (plan : chain.plan block.flowKind? = .evaluate) : chain = .matched := by
  rw [own] at plan
  cases chain <;> first | rfl | cases plan

theorem Granted.behind (granted : Granted path (i + 1) rest k us) (child : Applet)
    (inside : us <:+: ts) : Granted path i (child :: rest) (k + 1) ts := by
  obtain ⟨split, place, grants, follow, told⟩ := granted
  rename_i before guard members block after r
  have behind (j : Nat) : i + 1 + j = i + (j + 1) := by omega
  rw [behind, behind] at told
  have split : child :: rest = child :: before ++ guard :: (members ++ block :: after) :=
    congrArg (child :: ·) split
  exact .mk split (by rw [List.length_cons]; omega) grants follow (told.trans inside)

theorem taleBegins {r} (tale : Tale mode path block ts r) {t : Told} (inside : t ∈ ts) :
    [.started path] <+: ts := by
  obtain ⟨inner, -, shape⟩ := taleShape tale
  cases r with
  | some r =>
    rw [shape]
    exact ⟨inner ++ [.ended path r], rfl⟩
  | none =>
    rcases shape with rfl | rfl
    · simp at inside
    · exact ⟨inner, rfl⟩

theorem firstGranted (tales : Tales mode path chain last i (block :: rest) ts out)
    (own : block.flowKind? = some .block) (started : .started (path ++ [i]) ∈ ts) :
    chain = .matched ∧ [.started (path ++ [i])] <+: ts := by
  cases tales with
  | ahead => simp at started
  | skip plan later | orphan plan later =>
    rcases List.mem_cons.mp started with same | inside
    · cases same
    · exact absurd inside (talesElse later (Nat.lt_succ_self i) rfl)
  | visiting plan inner => exact ⟨blockMatched own plan, taleBegins inner started⟩
  | visited plan inner goes later =>
    refine ⟨blockMatched own plan, ?_⟩
    exact (taleBegins inner (taleEnded inner)).trans (List.prefix_append _ _)
  | cut plan inner stop =>
    refine ⟨blockMatched own plan, ?_⟩
    exact (taleBegins inner (taleEnded inner)).trans (List.prefix_append _ _)

/- Of the children from place `i` on, a block that is started follows skipped members only, up to
its guard or, if the chain has been matched before, to place `i`. -/
theorem talesGranted (tales : Tales mode path chain last i children ts out)
    (found : children[k]? = some block) (own : block.flowKind? = some .block)
    (started : .started (path ++ [i + k]) ∈ ts) :
    Granted path i children k ts ∨ chain = .matched ∧ ∃ members rest,
      children = members ++ block :: rest ∧ k = members.length ∧ (∀ c ∈ members, c.follows) ∧
        skips path i members ++ [.started (path ++ [i + k])] <+: ts := by
  -- By induction on the children. The chain is matched at place `i` either by a guard before it,
  -- then all members up to the block are skipped, or by one of them, which is the guard wanted.
  induction children generalizing chain last i k ts with
  | nil => simp at found
  | cons child rest ih =>
    cases k with
    | zero =>
      obtain rfl : child = block := Option.some.inj found
      obtain ⟨matched, begins⟩ := firstGranted tales own started
      exact .inr ⟨matched, [], rest, rfl, rfl, by simp, begins⟩
    | succ k =>
      have place : i + (k + 1) = i + 1 + k := by omega
      rw [place] at started ⊢
      have other {front r} (inner : Tale mode (path ++ [i]) child front r) :
          .started (path ++ [i + 1 + k]) ∉ front := taleElse inner (by omega) rfl
      cases tales with
      | ahead => simp at started
      | skip plan later =>
        have inside := (List.mem_cons.mp started).resolve_left (by simp)
        rcases ih later found inside with
          granted | ⟨matched, members, rest, split, at', follow, front⟩
        · exact .inl (granted.behind child (List.suffix_cons _ _).isInfix)
        · subst matched
          refine .inr ⟨rfl, child :: members, rest, by rw [split]; rfl, by simp [at'], ?_, ?_⟩
          · exact List.forall_mem_cons.mpr ⟨matchedSkip plan, follow⟩
          · exact List.cons_prefix_cons.mpr ⟨rfl, front⟩
      | orphan plan later =>
        have inside := (List.mem_cons.mp started).resolve_left (by simp)
        rcases ih later found inside with granted | ⟨matched, -⟩
        · exact .inl (granted.behind child (List.suffix_cons _ _).isInfix)
        · cases matched
      | visiting plan inner => exact absurd started (other inner)
      | @visited _ _ _ _ _ _ _ front r us _ plan inner goes later =>
        have inside := (List.mem_append.mp started).resolve_left (other inner)
        rcases ih later found inside with
          granted | ⟨matched, members, rest', split, at', follow, begins⟩
        · exact .inl (granted.behind child (List.suffix_append _ _).isInfix)
        · have split : child :: rest = [] ++ child :: (members ++ block :: rest') := by
            rw [split]
            rfl
          refine .inl (.mk split ?_ (afterMatched matched) follow ?_)
          · simp [at']
            omega
          · obtain ⟨deeper, -, shape⟩ := taleShape inner
            obtain ⟨back, rfl⟩ := begins
            refine ⟨.started (path ++ [i]) :: deeper, back, ?_⟩
            simp [shape, place]
      | cut plan inner stop =>
        have inside := (List.mem_append.mp started).resolve_left (other inner)
        obtain ⟨j, -, -, same⟩ := skipsWithin inside
        cases same

theorem grantsSteers {a : Applet} {r : AppletResult} (grants : a.grants r = true) :
    a.flowKind?.any FlowKind.steersChain = true := by
  unfold Applet.grants at grants
  generalize a.flowKind? = kind at grants ⊢
  cases kind with
  | none => simp at grants
  | some kind => cases kind <;> first | rfl | simp [FlowKind.isGuard] at grants

theorem followsSteers {a : Applet} (follows : a.follows) :
    a.flowKind?.any FlowKind.steersChain = true := by
  rcases follows with kind | kind <;> rw [kind] <;> rfl

theorem deciderBehind (found : children[k]? = some child)
    (steers : child.flowKind?.any FlowKind.steersChain = true) :
    decider? children (k + 1) = some k := by
  rw [decider?, List.range_succ, List.reverse_append, List.reverse_singleton, List.singleton_append,
    List.find?_cons_of_pos]
  simpa [found] using steers

theorem Granted.weaken (granted : Granted path i children k us) (inside : us <:+: ts) :
    Granted path i children k ts := by
  obtain ⟨split, place, grants, follow, told⟩ := granted
  exact .mk split place grants follow (told.trans inside)

theorem Granted.owner (granted : Granted path 0 children k ts)
    (alone : ∀ j < children.length, .skipped (path ++ [j]) ∈ ts →
      ∀ r, .ended (path ++ [j]) r ∉ ts) :
    OwnGuard path children k ts ↔ .skipped (path ++ [k - 1]) ∉ ts := by
  obtain ⟨split, place, grants, follow, told⟩ := granted
  rename_i before guard members block rest r
  rw [Nat.zero_add, Nat.zero_add] at told
  have inside {t} (at' : t ∈ .ended (path ++ [before.length]) r ::
      skips path (before.length + 1) members ++ [.started (path ++ [k])]) : t ∈ ts :=
    told.subset at'
  have ended : .ended (path ++ [before.length]) r ∈ ts := inside List.mem_cons_self
  cases last : members.getLast? with
  | none =>
    obtain rfl := List.getLast?_eq_none_iff.mp last
    obtain rfl : k = before.length + 1 := place
    have found : children[before.length]? = some guard := by simp [split]
    have known : before.length < children.length := by simp [split]
    refine iff_of_true ⟨_, guard, r, deciderBehind found (grantsSteers grants), found, ended, grants⟩
      fun skipped => alone _ known skipped r ended
  | some member =>
    obtain ⟨front, rfl⟩ := List.getLast?_eq_some_iff.mp last
    obtain rfl : k = before.length + 1 + front.length + 1 := by
      simp only [List.length_append, List.length_singleton] at place
      omega
    have found : children[before.length + 1 + front.length]? = some member := by
      rw [split, List.getElem?_append_right (by omega), show before.length + 1 + front.length -
        before.length = front.length + 1 by omega]
      simp
    have known : before.length + 1 + front.length < children.length := by
      simp only [split, List.length_append, List.length_cons, List.length_nil]
      omega
    have skipped : .skipped (path ++ [before.length + 1 + front.length]) ∈ ts := by
      refine inside (List.mem_append_left _ (List.mem_cons_of_mem _ ?_))
      rw [skipsAppend]
      exact List.mem_append_right _ List.mem_cons_self
    have decides := deciderBehind found (followsSteers (follow member (by simp)))
    refine iff_of_false ?_ fun other => other skipped
    rintro ⟨g, guard', r', decides', -, ended', -⟩
    obtain rfl := Option.some.inj (decides.symm.trans decides')
    exact alone _ known skipped r' ended'

theorem treeGranted {tree : Applet} {info : AppletInfo} {spec : FlowSpec} {r}
    (tale : Tale mode [] tree ts r) (located : tree.at? path = some (.flow info spec children))
    (found : children[k]? = some block) (own : block.flowKind? = some .block)
    (started : .started (path ++ [k]) ∈ ts) : Granted path 0 children k ts := by
  obtain ⟨r', inner, -⟩ := taleOf tale located started (List.prefix_append path [k]) (by simp)
  have started : .started (path ++ [k]) ∈ under path ts :=
    memUnder.mpr ⟨started, List.prefix_append path [k]⟩
  have together : under path ts <:+: ts := taleTogether tale located
  refine Granted.weaken ?_ together
  generalize under path ts = us at inner started
  have block {mode us out} (tales : Tales mode path .idle none 0 children us out)
      (started : .started (path ++ [k]) ∈ us) : Granted path 0 children k us := by
    rw [← Nat.zero_add k] at started
    rcases talesGranted tales found own started with granted | ⟨idle, -⟩
    · exact granted
    · cases idle
  have deeper : Told.started (path ++ [k]) ≠ .started path := by simp
  cases inner with
  | ahead => simp at started
  | leafOpen leaf | leaf leaf => cases leaf
  | unavailable selective =>
    have inside : Told.started (path ++ [k]) ∈ skips path 0 children := by simpa using started
    obtain ⟨j, -, -, same⟩ := skipsWithin inside
    cases same
  | flowOpen tales =>
    have inside := (List.mem_cons.mp started).resolve_left deeper
    exact (block tales inside).weaken (List.suffix_cons _ _).isInfix
  | @flow _ _ _ _ _ us last r tales passed =>
    have inside : Told.started (path ++ [k]) ∈ us := by simpa using started
    exact (block tales inside).weaken ⟨[.started path], [.ended path r], rfl⟩

end

namespace Lone

/- A block runs only behind a guard that has succeeded or a catch-all, with nothing evaluated in
between. That guard is the block's own, the nearest before it, just if the child in front of the
block has not been skipped: a further member that follows the guard without a block between is
passed over, and the block behind that member runs in place of the block that is missing. -/
theorem blocksGuarded {world : World} (clean : world.slates.Clean) {task : Task} {path : List Nat}
    {info : AppletInfo} {spec : FlowSpec} {children : List Applet} {d : Nat} {block : Applet}
    (located : task.tree.at? path = some (.flow info spec children))
    (found : children[d]? = some block) (own : block.flowKind? = some .block) (handle : Handle)
    (observer : Option Observer) (first : Batch) (later : List Batch) :
    let told := (drive (obtain world task handle observer first) first later).1.journal.told
    .started (path ++ [d]) ∈ told →
      Granted path 0 children d told ∧
        (OwnGuard path children d told ↔ .skipped (path ++ [d - 1]) ∉ told) := by
  intro told started
  obtain ⟨r, tale, -⟩ := driveTold clean task handle observer first later
  have granted : Granted path 0 children d told := treeGranted tale located found own started
  refine ⟨granted, granted.owner fun j known skipped r ended => ?_⟩
  have child := atChild located (List.getElem?_eq_getElem known)
  have here : Told.ended (path ++ [j]) r ∈ under (path ++ [j]) told :=
    memUnder.mpr ⟨ended, List.prefix_rfl⟩
  rw [skippedAlone tale child skipped] at here
  simp at here

def twoGuardsTask : Task :=
  ⟨{ title := "Two guards" },
    Sample.flow .root [Sample.flow .ifAll [], Sample.flow .elseIf [], Sample.flow .block []],
    rfl, rfl⟩

/- Of two guards in a row the first succeeds. The block runs, whose own guard is the second one. -/
theorem blocksGuardedOther :
    World.fresh.slates.Clean ∧
      let told := (drive (obtain World.fresh twoGuardsTask ⟨0⟩ none launcherBatch) launcherBatch
        []).1.journal.told
      .started [2] ∈ told ∧ Granted [] 0 twoGuardsTask.tree.children 2 told ∧
        ¬ OwnGuard [] twoGuardsTask.tree.children 2 told := by
  have clean : World.fresh.slates.Clean := fun a inside => nomatch inside
  have started : Told.started [2] ∈ (drive (obtain World.fresh twoGuardsTask ⟨0⟩ none launcherBatch)
      launcherBatch []).1.journal.told := by decide
  have skipped : Told.skipped [1] ∈ (drive (obtain World.fresh twoGuardsTask ⟨0⟩ none launcherBatch)
      launcherBatch []).1.journal.told := by decide
  have located : twoGuardsTask.tree.at? [] = some (.flow { id := .unregistered } { kind := .root }
      twoGuardsTask.tree.children) := rfl
  have found : twoGuardsTask.tree.children[2]? = some (Sample.flow .block []) := rfl
  obtain ⟨granted, own⟩ := blocksGuarded clean located found rfl ⟨0⟩ none launcherBatch [] started
  exact ⟨clean, started, granted, fun owner => own.mp owner skipped⟩

end Lone
end Automation
