import Automation.Proofs.Branches
import Automation.Proofs.Shortcut
/-! Guards as conjunctions. What a guard is made of are applets that stand alone, and chains. If it
succeeds, the applets have, and so has each chain of which a block has run. But a chain of which
none has run is passed over in silence if anything stands behind it. -/
namespace Automation

/- What guards are made of: applets that stand alone, and chains. -/
inductive Item where
  | single (a : Applet)
  | chain (members : List Applet)

namespace Item

def applets : Item → List Applet
  | single a => [a]
  | chain members => members

def Legal : Item → Prop
  | single a => a.flowKind?.all FlowKind.isTransparent = true
  | chain members => Branches members

def Succeeds (path : List Nat) (i : Nat) (ts : List Told) : Item → Prop
  | single _ => ∃ r, .ended (path ++ [i]) r ∈ ts ∧ r.isSuccessful = true
  | chain members => ∃ k block r, members[k]? = some block ∧ block.flowKind? = some .block ∧
      .ended (path ++ [i + k]) r ∈ ts ∧ r.isSuccessful = true

def Unmatched (path : List Nat) (i : Nat) (ts : List Told) : Item → Prop
  | single _ => False
  | chain members => ∀ k block, members[k]? = some block → block.flowKind? = some .block →
      .started (path ++ [i + k]) ∉ ts

end Item

def placeBehind (before : List Item) : Nat := (before.flatMap Item.applets).length

def Each (i : Nat) (items : List Item) (P : Nat → Item → List Item → Prop) : Prop :=
  ∀ before item after, items = before ++ item :: after → P (i + placeBehind before) item after

/- Each item has succeeded, or is an unmatched chain with something behind it. -/
def Conjoined (path : List Nat) (i : Nat) (items : List Item) (ts : List Told) : Prop :=
  Each i items fun place item after =>
    item.Succeeds path place ts ∨ after ≠ [] ∧ item.Unmatched path place ts

def Reads (path : List Nat) (i : Nat) (whole ts : List Told) : Prop :=
  ∀ t j, i ≤ j → t.path = path ++ [j] → (t ∈ whole ↔ t ∈ ts)

structure Clear (path : List Nat) (n : Nat) (ts : List Told) : Prop where
  begun : ∀ j < n, ∀ r, .ended (path ++ [j]) r ∈ ts → .started (path ++ [j]) ∈ ts
  unstarted : ∀ j < n, .skipped (path ++ [j]) ∈ ts → .started (path ++ [j]) ∉ ts
  unended : ∀ j < n, .skipped (path ++ [j]) ∈ ts → ∀ r, .ended (path ++ [j]) r ∉ ts
  once : ∀ j < n, ∀ r r', .ended (path ++ [j]) r ∈ ts → .ended (path ++ [j]) r' ∈ ts → r = r'

inductive Ran (path : List Nat) (i : Nat) (members : List Applet) (ts : List Told)
    (r : AppletResult) : Prop where
  | mk {k block} (found : members[k]? = some block) (own : block.flowKind? = some .block)
      (ended : .ended (path ++ [i + k]) r ∈ ts)
      (others : ∀ j c, members[j]? = some c → c.flowKind? = some .block → j ≠ k →
        .skipped (path ++ [i + j]) ∈ ts)

def Missed (path : List Nat) (i : Nat) (members : List Applet) (ts : List Told) : Prop :=
  ∀ j c, members[j]? = some c → c.flowKind? = some .block → .skipped (path ++ [i + j]) ∈ ts

inductive Comes (path : List Nat) (i : Nat) (members after : List Applet) (whole : List Told)
    (last : Option AppletResult) : Prop where
  | succeeded {r chain ts} (ran : Ran path i members whole r) (success : r.isSuccessful = true)
      (later : Tales .guard path chain (some r) (i + members.length) after ts (some last))
      (reads : Reads path (i + members.length) whole ts)
  | unmatched {r chain ts} (missed : Missed path i members whole) (failed : r.isSuccessful = false)
      (later : Tales .guard path chain (some r) (i + members.length) after ts (some last))
      (reads : Reads path (i + members.length) whole ts)
  | failed {r} (ran : Ran path i members whole r) (failed : r.isSuccessful = false)
      (came : last = some r)

inductive Item.Fares (path : List Nat) (i : Nat) (item : Item) (after : List Applet)
    (whole : List Told) (last : Option AppletResult) : Prop where
  | succeeded {r chain ts} (succeeds : item.Succeeds path i whole) (success : r.isSuccessful = true)
      (later : Tales .guard path chain (some r) (i + item.applets.length) after ts (some last))
      (reads : Reads path (i + item.applets.length) whole ts)
  | unmatched {r chain ts} (unmatched : item.Unmatched path i whole)
      (fails : ¬ item.Succeeds path i whole) (failed : r.isSuccessful = false)
      (later : Tales .guard path chain (some r) (i + item.applets.length) after ts (some last))
      (reads : Reads path (i + item.applets.length) whole ts)
  | failed {r} (fails : ¬ item.Succeeds path i whole) (matched : ¬ item.Unmatched path i whole)
      (failed : r.isSuccessful = false) (came : last = some r)

section
variable {path : List Nat} {i n : Nat} {child block guard : Applet} {rest members after : List Applet}
  {whole ts us front : List Told} {chain : Chain} {last last' : Option AppletResult}
  {r : AppletResult}

theorem Reads.skipped (reads : Reads path i whole (.skipped (path ++ [i]) :: ts)) :
    Reads path (i + 1) whole ts := by
  intro t j low own
  rw [reads t j (by omega) own, List.mem_cons, or_iff_right]
  rintro rfl
  have same : i = j := by simpa [Told.path] using own
  omega

theorem Reads.visited {mode r} (reads : Reads path i whole (front ++ ts))
    (inner : Tale mode (path ++ [i]) child front r) : Reads path (i + 1) whole ts := by
  intro t j low own
  rw [reads t j (by omega) own, List.mem_append, or_iff_right (taleElse inner (by omega) own)]

theorem restDone (skip : ∀ c ∈ rest, chain.plan c.flowKind? = .skip)
    (tales : Tales .guard path chain last i (rest ++ after) ts (some last'))
    (reads : Reads path i whole ts) :
    ∃ us, Tales .guard path chain last (i + rest.length) after us (some last') ∧
      Reads path (i + rest.length) whole us ∧
      ∀ j, j < rest.length → .skipped (path ++ [i + j]) ∈ whole := by
  induction rest generalizing i ts with
  | nil => exact ⟨ts, tales, reads, by simp⟩
  | cons child rest ih =>
    have plan := skip child List.mem_cons_self
    cases tales with
    | skip _ later =>
      have here : .skipped (path ++ [i]) ∈ whole :=
        (reads _ i (Nat.le_refl i) rfl).mpr List.mem_cons_self
      obtain ⟨us, later, reads, skipped⟩ :=
        ih (fun c inside => skip c (List.mem_cons_of_mem child inside)) later reads.skipped
      rw [show i + 1 + rest.length = i + (child :: rest).length by simp; omega] at later reads
      refine ⟨us, later, reads, fun j known => ?_⟩
      cases j with
      | zero => exact here
      | succ j =>
        rw [show i + (j + 1) = i + 1 + j by omega]
        exact skipped j (by simpa using known)
    | orphan other | visited other | cut other =>
      rw [plan] at other
      cases other

theorem blockComes (own : block.flowKind? = some .block) (continues : Continues rest)
    (tales : Tales .guard path .matched last i (block :: (rest ++ after)) ts (some last'))
    (reads : Reads path i whole ts) : Comes path i (block :: rest) after whole last' := by
  have here {r front us} (inner : Tale .guard (path ++ [i]) block front (some r))
      (reads : Reads path i whole (front ++ us))
      (skipped : ∀ j, j < rest.length → .skipped (path ++ [i + 1 + j]) ∈ whole) :
      Ran path i (block :: rest) whole r := by
    have told {t : Told} (at' : t.path = path ++ [i]) (inside : t ∈ front) : t ∈ whole :=
      (reads t i (Nat.le_refl i) at').mpr (List.mem_append_left _ inside)
    refine .mk (k := 0) rfl own (told rfl (taleEnded inner)) ?_
    intro j c found _ other
    obtain ⟨j, rfl⟩ : ∃ j', j = j' + 1 := ⟨j - 1, by omega⟩
    rw [show i + (j + 1) = i + 1 + j by omega]
    have known := (List.getElem?_eq_some_iff.mp found).1
    exact skipped j (Nat.lt_of_succ_lt_succ known)
  cases tales with
  | skip plan | orphan plan =>
    rw [own] at plan
    cases plan
  | @visited _ _ _ _ _ _ _ front r us _ plan inner goes later =>
    rw [own] at later
    have success : r.isSuccessful = true := by
      simpa [Mode.cuts, own, FlowKind.steersChain, FlowKind.isGuard] using goes
    obtain ⟨us, later, reads', skipped⟩ := restDone (doneSkips continues) later (reads.visited inner)
    rw [show i + 1 + rest.length = i + (block :: rest).length by simp; omega] at later reads'
    exact .succeeded (here inner reads skipped) success later reads'
  | @cut _ _ _ _ _ _ _ front r plan inner stop =>
    have failed : r.isSuccessful = false := by
      simpa [Mode.cuts, own, FlowKind.steersChain, FlowKind.isGuard] using stop
    refine .failed (here inner reads fun j known => ?_) failed rfl
    refine (reads _ (i + 1 + j) (by omega) rfl).mpr (List.mem_append_right _ ?_)
    exact memSkips path (by omega) (by rw [List.length_append]; omega)

theorem Ran.behind (ran : Ran path (i + 1) rest whole r) (other : child.flowKind? ≠ some .block ∨
    .skipped (path ++ [i]) ∈ whole) : Ran path i (child :: rest) whole r := by
  obtain ⟨found, own, ended, others⟩ := ran
  rename_i k block
  rw [show i + 1 + k = i + (k + 1) by omega] at ended
  refine .mk (k := k + 1) found own ended fun j c there kind apart => ?_
  cases j with
  | zero =>
    cases Option.some.inj there
    exact other.resolve_left fun plain => plain kind
  | succ j =>
    rw [show i + (j + 1) = i + 1 + j by omega]
    exact others j c there kind (by omega)

theorem missedBehind (missed : Missed path (i + 1) rest whole)
    (other : child.flowKind? ≠ some .block ∨ .skipped (path ++ [i]) ∈ whole) :
    Missed path i (child :: rest) whole := by
  intro j c there kind
  cases j with
  | zero =>
    cases Option.some.inj there
    exact other.resolve_left fun plain => plain kind
  | succ j =>
    rw [show i + (j + 1) = i + 1 + j by omega]
    exact missed j c there kind

theorem Comes.behind (comes : Comes path (i + 1) rest after whole last)
    (other : child.flowKind? ≠ some .block ∨ .skipped (path ++ [i]) ∈ whole) :
    Comes path i (child :: rest) after whole last := by
  have place : i + 1 + rest.length = i + (child :: rest).length := by simp; omega
  cases comes with
  | succeeded ran success later reads =>
    rw [place] at later reads
    exact .succeeded (ran.behind other) success later reads
  | unmatched missed failed later reads =>
    rw [place] at later reads
    exact .unmatched (missedBehind missed other) failed later reads
  | failed ran failed came => exact .failed (ran.behind other) failed came

theorem guardComes {kind : FlowKind} (guarding : guard.flowKind? = some kind)
    (guards : kind.isGuard = true) (plan : chain.plan guard.flowKind? = .evaluate)
    (own : block.flowKind? = some .block) (continues : Continues rest)
    (tales : Tales .guard path chain last i (guard :: block :: (rest ++ after)) ts (some last'))
    (reads : Reads path i whole ts)
    (onward : ∀ r ts, r.isSuccessful = false →
      Tales .guard path .unmatched (some r) (i + 2) (rest ++ after) ts (some last') →
      Reads path (i + 2) whole ts → Comes path (i + 2) rest after whole last') :
    Comes path i (guard :: block :: rest) after whole last' := by
  have plain : guard.flowKind? ≠ some .block := by
    rw [guarding]
    rintro ⟨rfl⟩
    cases guards
  cases tales with
  | skip other | orphan other =>
    rw [plan] at other
    cases other
  | cut _ inner stop => simp [Mode.cuts, guarding, FlowKind.steersChain, guards] at stop
  | @visited _ _ _ _ _ _ _ front r us _ _ inner goes later =>
    have reads := reads.visited inner
    rw [guarding, afterGuard guards] at later
    refine Comes.behind ?_ (.inl plain)
    cases succeeded : r.isSuccessful with
    | true =>
      rw [succeeded] at later
      exact blockComes own continues later reads
    | false =>
      rw [succeeded, if_neg Bool.false_ne_true] at later
      have skip : Chain.unmatched.plan block.flowKind? = .skip := by
        rw [own]
        rfl
      cases later with
      | skip _ later =>
        have skipped : .skipped (path ++ [i + 1]) ∈ whole :=
          (reads _ (i + 1) (Nat.le_refl _) rfl).mpr List.mem_cons_self
        exact Comes.behind (onward r _ succeeded later reads.skipped) (.inr skipped)
      | orphan other | visited other | cut other =>
        rw [skip] at other
        cases other

theorem unmatchedComes (continues : Continues members)
    (tales : Tales .guard path .unmatched (some r) i (members ++ after) ts (some last'))
    (failed : r.isSuccessful = false) (reads : Reads path i whole ts) :
    Comes path i members after whole last' := by
  induction continues generalizing i ts r with
  | none => exact .unmatched (by simp [Missed]) failed tales reads
  | @elseIf guard block rest kind own later ih =>
    have plan : Chain.unmatched.plan guard.flowKind? = .evaluate := by
      rw [kind]
      rfl
    exact guardComes kind rfl plan own later tales reads fun r ts failed tales reads =>
      ih tales failed reads
  | @otherwise guard block kind own =>
    have plan : Chain.unmatched.plan guard.flowKind? = .evaluate := by
      rw [kind]
      rfl
    cases tales with
    | skip other | orphan other =>
      rw [plan] at other
      cases other
    | cut _ inner stop => simp [Mode.cuts, kind, FlowKind.steersChain] at stop
    | visited _ inner goes later =>
      rw [kind, afterOtherwise] at later
      refine Comes.behind ?_ (.inl (by simp [kind]))
      exact blockComes own .none later (reads.visited inner)

theorem branchesComes (branches : Branches members)
    (tales : Tales .guard path chain last i (members ++ after) ts (some last'))
    (reads : Reads path i whole ts) : Comes path i members after whole last' := by
  cases branches with
  | @opened guard block rest kind opens guarding own later =>
    have guards : kind.isGuard = true := by rcases opens with rfl | rfl <;> rfl
    have plan : chain.plan guard.flowKind? = .evaluate := by rw [guarding, openedPlan opens]
    exact guardComes guarding guards plan own later tales reads fun r ts failed tales reads =>
      unmatchedComes later tales failed reads

theorem Ran.succeeds (ran : Ran path i members whole r) (success : r.isSuccessful = true) :
    (Item.chain members).Succeeds path i whole := by
  obtain ⟨found, own, ended, others⟩ := ran
  exact ⟨_, _, r, found, own, ended, success⟩

theorem Ran.fails (ran : Ran path i members whole r) (failed : r.isSuccessful = false)
    (clear : Clear path n whole) (room : i + members.length ≤ n) :
    ¬ (Item.chain members).Succeeds path i whole ∧
      ¬ (Item.chain members).Unmatched path i whole := by
  obtain ⟨found, own, ended, others⟩ := ran
  rename_i k block
  have here := (List.getElem?_eq_some_iff.mp found).1
  refine ⟨?_, fun none => none k block found own (clear.begun (i + k) (by omega) r ended)⟩
  rintro ⟨j, c, r', there, kind, ended', success⟩
  have known := (List.getElem?_eq_some_iff.mp there).1
  by_cases same : j = k
  · subst same
    obtain rfl := clear.once (i + j) (by omega) r r' ended ended'
    simp [failed] at success
  · exact clear.unended (i + j) (by omega) (others j c there kind same) r' ended'

theorem missedUnmatched (missed : Missed path i members whole) (clear : Clear path n whole)
    (room : i + members.length ≤ n) :
    ¬ (Item.chain members).Succeeds path i whole ∧
      (Item.chain members).Unmatched path i whole := by
  constructor
  · rintro ⟨j, c, r, there, kind, ended, -⟩
    have known := (List.getElem?_eq_some_iff.mp there).1
    exact clear.unended (i + j) (by omega) (missed j c there kind) r ended
  · intro j c there kind
    have known := (List.getElem?_eq_some_iff.mp there).1
    exact clear.unstarted (i + j) (by omega) (missed j c there kind)

theorem singlePlan {kind : Option FlowKind} (alone : kind.all FlowKind.isTransparent = true)
    (chain : Chain) : chain.plan kind = .evaluate ∧ kind.any FlowKind.steersChain = false := by
  cases kind with
  | none => exact ⟨rfl, rfl⟩
  | some kind => cases kind <;> cases chain <;> first | exact ⟨rfl, rfl⟩ | cases alone

theorem itemFares {item : Item} (legal : item.Legal) (clear : Clear path n whole)
    (room : i + item.applets.length ≤ n)
    (tales : Tales .guard path chain last i (item.applets ++ after) ts (some last'))
    (reads : Reads path i whole ts) : item.Fares path i after whole last' := by
  cases item with
  | chain members =>
    have comes : Comes path i members after whole last' := branchesComes legal tales reads
    cases comes with
    | succeeded ran success later reads => exact .succeeded (ran.succeeds success) success later reads
    | unmatched missed failed later reads =>
      obtain ⟨fails, unmatched⟩ := missedUnmatched missed clear room
      exact .unmatched unmatched fails failed later reads
    | failed ran failed came =>
      obtain ⟨fails, matched⟩ := ran.fails failed clear room
      exact .failed fails matched failed came
  | single a =>
    obtain ⟨plan, plain⟩ := singlePlan legal chain
    have told {r front us} (inner : Tale .guard (path ++ [i]) a front (some r))
        (reads : Reads path i whole (front ++ us)) : .ended (path ++ [i]) r ∈ whole :=
      (reads _ i (Nat.le_refl i) rfl).mpr (List.mem_append_left _ (taleEnded inner))
    cases tales with
    | skip other | orphan other =>
      rw [plan] at other
      cases other
    | @visited _ _ _ _ _ _ _ front r us _ _ inner goes later =>
      have success : r.isSuccessful = true := by simpa [Mode.cuts, plain] using goes
      exact .succeeded ⟨r, told inner reads, success⟩ success later (reads.visited inner)
    | @cut _ _ _ _ _ _ _ front r _ inner stop =>
      have failed : r.isSuccessful = false := by simpa [Mode.cuts, plain] using stop
      refine .failed ?_ id failed rfl
      rintro ⟨r', ended, success⟩
      have known : i < n := room
      obtain rfl := clear.once i known r r' (told inner reads) ended
      simp [failed] at success

theorem succeedsMatched {item : Item} (clear : Clear path n whole)
    (room : i + item.applets.length ≤ n) (succeeds : item.Succeeds path i whole) :
    ¬ item.Unmatched path i whole := by
  cases item with
  | single a => exact id
  | chain members =>
    obtain ⟨k, block, r, found, own, ended, -⟩ := succeeds
    have known : i + k < n := by
      have short := (List.getElem?_eq_some_iff.mp found).1
      simp only [Item.applets] at room
      omega
    exact fun none => none k block found own (clear.begun (i + k) known r ended)

theorem conjoinedCons (path : List Nat) (i : Nat) (item : Item) (items : List Item)
    (ts : List Told) :
    Conjoined path i (item :: items) ts ↔
      (item.Succeeds path i ts ∨ items ≠ [] ∧ item.Unmatched path i ts) ∧
        Conjoined path (i + item.applets.length) items ts := by
  have place (before : List Item) : i + placeBehind (item :: before) =
      i + item.applets.length + placeBehind before := by
    simp [placeBehind, Nat.add_assoc]
  constructor
  · refine fun all => ⟨all [] item items rfl, fun before other after split => ?_⟩
    rw [← place]
    exact all (item :: before) other after (by rw [split]; rfl)
  · rintro ⟨first, later⟩ before other after split
    cases before with
    | nil =>
      cases split
      exact first
    | cons _ before =>
      cases split
      rw [place]
      exact later before other after rfl

theorem itemsConjoined {items : List Item} (legal : ∀ item ∈ items, item.Legal)
    (clear : Clear path n whole) (room : i + placeBehind items ≤ n)
    (tales : Tales .guard path chain last i (items.flatMap Item.applets) ts (some last'))
    (reads : Reads path i whole ts) (some' : items ≠ []) :
    ∃ r, last' = some r ∧ (r.isSuccessful = true ↔ Conjoined path i items whole) := by
  induction items generalizing i chain last ts with
  | nil => exact absurd rfl some'
  | cons item items ih =>
    have length : placeBehind (item :: items) = item.applets.length + placeBehind items := by
      simp [placeBehind]
    rw [length, ← Nat.add_assoc] at room
    rw [conjoinedCons]
    have behind {chain last us}
        (later : Tales .guard path chain last (i + item.applets.length)
          (items.flatMap Item.applets) us (some last'))
        (reads : Reads path (i + item.applets.length) whole us) (more : items ≠ []) :=
      ih (fun item inside => legal item (List.mem_cons_of_mem _ inside)) room later reads more
    have fares := itemFares (legal item List.mem_cons_self) clear (by omega) tales reads
    by_cases more : items = []
    · subst more
      have alone : Conjoined path (i + item.applets.length) [] whole := by
        intro before item after split
        simp at split
      cases fares with
      | succeeded succeeds success later reads =>
        cases later
        exact ⟨_, rfl, iff_of_true success ⟨.inl succeeds, alone⟩⟩
      | unmatched unmatched fails failed later reads =>
        cases later
        exact ⟨_, rfl, iff_of_false (by simp [failed]) (by simp [fails])⟩
      | failed fails matched failed came =>
        exact ⟨_, came, iff_of_false (by simp [failed]) (by simp [fails])⟩
    · cases fares with
      | succeeded succeeds success later reads =>
        obtain ⟨r, came, exact'⟩ := behind later reads more
        exact ⟨r, came, by simp [exact', succeeds]⟩
      | unmatched unmatched fails failed later reads =>
        obtain ⟨r, came, exact'⟩ := behind later reads more
        exact ⟨r, came, by simp [exact', more, unmatched]⟩
      | failed fails matched failed came =>
        exact ⟨_, came, iff_of_false (by simp [failed]) (by simp [fails, matched])⟩

end

theorem treeClear {mode : Mode} {tree : Applet} {path : List Nat} {info : AppletInfo}
    {spec : FlowSpec} {children : List Applet} {ts : List Told} {r : Option AppletResult}
    (tale : Tale mode [] tree ts r) (located : tree.at? path = some (.flow info spec children)) :
    Clear path children.length ts := by
  have at' (j : Nat) (known : j < children.length) := atChild located
    (List.getElem?_eq_getElem known)
  have alone (j : Nat) (known : j < children.length) (skipped : .skipped (path ++ [j]) ∈ ts)
      (t : Told) (other : t ≠ .skipped (path ++ [j])) (own : t.path = path ++ [j]) : t ∉ ts := by
    intro inside
    have here : t ∈ under (path ++ [j]) ts := memUnder.mpr ⟨inside, by rw [own]⟩
    rw [skippedAlone tale (at' j known) skipped] at here
    exact other (List.mem_singleton.mp here)
  refine ⟨fun j known r ended => ?_, fun j known skipped => ?_, fun j known skipped r => ?_,
    fun j known r r' => endedOnce tale (at' j known)⟩
  · exact endedStarted tale (at' j known) ended
  · exact alone j known skipped _ (by simp) rfl
  · exact alone j known skipped _ (by simp) rfl

namespace Lone

/- A guard is a conjunction of what it is made of, up to chains of which no block has run: such a
chain makes the guard fail if it stands last, and makes no difference if anything stands behind it.
So if a guard succeeds all it is made of has, unless such a chain is in it. -/
theorem guardConjoined {world : World} (clean : world.slates.Clean) {task : Task} {path : List Nat}
    {info : AppletInfo} {spec : FlowSpec} {items : List Item}
    (located : task.tree.at? path = some (.flow info spec (items.flatMap Item.applets)))
    (guard : spec.kind.isGuard = true) (plain : spec.selector = none)
    (legal : ∀ item ∈ items, item.Legal) (handle : Handle) (observer : Option Observer)
    (first : Batch) (later : List Batch) {r : AppletResult} :
    let told := (drive (obtain world task handle observer first) first later).1.journal.told
    .ended path r ∈ told →
      (r.isSuccessful = true ↔ Conjoined path 0 items told) ∧
      (r.isSuccessful = true →
        (Each 0 items (fun place item _ => item.Succeeds path place told) ↔
          Each 0 items fun place item _ => ¬ item.Unmatched path place told)) := by
  intro told ended
  obtain ⟨r', tale, -⟩ := driveTold clean task handle observer first later
  obtain ⟨us, out, within⟩ := treeWithin tale located ended List.prefix_rfl (by simp) (.inl plain)
  obtain ⟨last, rfl, hands⟩ := withinEnded within ended
  have clear := treeClear tale located
  have reads : Reads path 0 told us := fun t j _ own => within.children j t own
  have tales := within.tales
  rw [FlowKind.mode, if_pos guard] at tales
  have exact' : r.isSuccessful = true ↔ Conjoined path 0 items told := by
    rw [hands.plain plain]
    by_cases none : items = []
    · subst none
      cases tales
      refine iff_of_true rfl fun before item after split => ?_
      simp at split
    · obtain ⟨r, rfl, exact'⟩ := itemsConjoined legal clear
        (Nat.le_of_eq (Nat.zero_add _)) tales reads none
      exact exact'
  refine ⟨exact', fun success => ⟨fun all before item after split => ?_,
    fun none before item after split => ?_⟩⟩
  · refine succeedsMatched clear ?_ (all before item after split)
    subst split
    simp [placeBehind]
  · exact (exact'.mp success before item after split).resolve_right
      fun both => none before item after split both.2

def silentItems : List Item :=
  [.chain [Sample.flow .ifAll [.criterion { Sample.named "package is" (.make 0x10 0x0001) with
      references := Sample.slot "package" } (Check.field "package" fun a b => a.same b)],
    Sample.flow .block []],
    .single (Sample.flow .container [])]

def silentTask : Task :=
  ⟨{ title := "Silent chain" },
    Sample.flow .root [Sample.flow .ifAll (silentItems.flatMap Item.applets), Sample.flow .block []],
    rfl, rfl⟩

theorem guardConjoinedSilent :
    World.fresh.slates.Clean ∧ (∀ item ∈ silentItems, item.Legal) ∧
      let told := (drive (obtain World.fresh silentTask ⟨0⟩ none launcherBatch) launcherBatch
        []).1.journal.told
      .ended [0] (.empty true) ∈ told ∧ Conjoined [0] 0 silentItems told ∧
        ¬ Each 0 silentItems fun place item _ => item.Succeeds [0] place told := by
  have clean : World.fresh.slates.Clean := fun a inside => nomatch inside
  have legal : ∀ item ∈ silentItems, item.Legal := by
    intro item inside
    rcases List.mem_cons.mp inside with rfl | inside
    · exact .opened (.inr rfl) rfl rfl .none
    · obtain rfl := List.mem_singleton.mp inside
      rfl
  have ended : .ended [0] (.empty true) ∈ (drive (obtain World.fresh silentTask ⟨0⟩ none
      launcherBatch) launcherBatch []).1.journal.told := by decide
  have idle : .started [0, 1] ∉ (drive (obtain World.fresh silentTask ⟨0⟩ none launcherBatch)
      launcherBatch []).1.journal.told := by decide
  have located : silentTask.tree.at? [0] = some (.flow { id := .unregistered } { kind := .ifAll }
      (silentItems.flatMap Item.applets)) := rfl
  obtain ⟨conjoined, exact'⟩ := guardConjoined clean located rfl rfl legal ⟨0⟩ none launcherBatch []
    ended
  refine ⟨clean, legal, ended, conjoined.mp rfl, fun all => ?_⟩
  refine (exact' rfl).mp all [] _ _ rfl fun k block found own => ?_
  match k with
  | 0 =>
    cases found
    cases own
  | 1 => exact idle
  | k + 2 => cases found

end Lone
end Automation
