import PeerLink.Connector.Manual

/-!
# Where a URL is

No operation but `clear` concerns more than one URL, so a turn is a move between what the threads
and the sets are for one URL (`operate_move`). A URL that is not added while it is being
reconnected is in one place at a time: in `connectors`, in `reconnecting` with a task of its own,
or on the way between them in the hands of one thread (`Placed`). What the tick has collected
stays in `connectors` if no listing takes it out, and then nothing panics.
-/

namespace PeerLink.ManualConnector

open Schedule

variable {Url : Type} [DecidableEq Url] {url : Url}

/-! ## One URL -/

/-- The sets, for one URL. -/
structure Sight where
  connectors : Bool
  reconnecting : Bool
  removed : Bool
  wanted : Bool
  deriving DecidableEq

@[simps] def ConnectorManagerData.sight (data : ConnectorManagerData Url) (url : Url) : Sight where
  connectors := url ∈ data.connectors
  reconnecting := url ∈ data.reconnecting
  removed := url ∈ data.removedConnUrls
  wanted := (data.lastCommand url).any Command.isAdd

/-- A thread, for one URL. Outside of `handle_remove_connector` it may have `picked` the URL as
one that is in `connectors` and to be reconnected. -/
inductive View where
  | outside (picked : Bool)
  | visit (due later : Bool)
  | check (here due later : Bool)
  | clear (later : Bool)
  | refill (later : Bool)
  /-- the URL is out of one set and goes into the other -/
  | moving
  | running
  deriving DecidableEq

/-- Only the tick picks URLs. -/
def Collect.view (picks : Bool) (url : Url) : Collect Url → View
  | .visit due later => .visit (url ∈ due) (url ∈ later)
  | .check other due later => .check (other = url) (url ∈ due) (url ∈ later)
  | .clear later => .clear (url ∈ later)
  | .refill later => .refill (url ∈ later)
  | .read _ all => .outside (picks && url ∈ all)
  | .sift rest dead => .outside (picks && (url ∈ rest || url ∈ dead))
  | .done dead => .outside (picks && url ∈ dead)

def Thread.view (url : Url) : Thread Url → View
  | .tick .idle => .outside false
  | .tick (.collect phase) => phase.view true url
  | .tick (.reconnect dead) => .outside (url ∈ dead)
  | .tick (.hold other dead) => if other = url then .moving else .outside (url ∈ dead)
  | .call _ (.collect _ phase) => phase.view false url
  | .call _ _ => .outside false
  | .task other .running => if other = url then .running else .outside false
  | .task other .inserting => if other = url then .moving else .outside false
  | .task _ .ended => .outside false

/-- What a turn is about to do with one URL. -/
inductive Kind where
  | quiet
  /-- starts `handle_remove_connector` -/
  | begins
  /-- meets the URL in `removed_conn_urls` -/
  | visits
  /-- takes the URL out of `connectors` or `reconnecting`, or puts it in -/
  | carries
  /-- puts the URL into `removed_conn_urls` for the user -/
  | requests
  deriving DecidableEq

def Collect.kind (take : Option Url) (url : Url) : Collect Url → Kind
  | .visit _ _ => if take = some url then .visits else .quiet
  | _ => .quiet

theorem Collect.kind_cases (take : Option Url) (url : Url) (phase : Collect Url) :
    phase.kind take url = .quiet ∨ phase.kind take url = .visits ∧ take = some url := by
  cases phase with
  | visit due later =>
    simp only [Collect.kind]
    split
    · exact .inr ⟨rfl, by assumption⟩
    · exact .inl rfl
  | _ => exact .inl rfl

def Thread.kind (take : Option Url) (url : Url) : Thread Url → Kind
  | .tick .idle => .begins
  | .tick (.collect phase) => phase.kind take url
  | .tick (.reconnect _) => if take = some url then .carries else .quiet
  | .tick (.hold other _) => if other = url then .carries else .quiet
  | .call _ (.connectors _ _) => if take = none then .begins else .quiet
  | .call _ (.collect _ phase) => phase.kind take url
  | .call _ (.insert other) => if other = url then .requests else .quiet
  | .task other .running | .task other .inserting => if other = url then .carries else .quiet
  | _ => .quiet

/-- A turn of a thread and the task it starts, for one URL. -/
inductive Move : Kind → Sight → View → Sight → View → Option View → Prop
  | stay (k : Kind) (s : Sight) (v : View) (new : Option View)
      (other : ∀ n ∈ new, n = .outside false) : Move k s v s v new
  | look (k : Kind) (s : Sight) (p p' : Bool) (new : Option View)
      (seen : p' = true → p = true ∨ s.connectors = true)
      (other : ∀ n ∈ new, n = .outside false) : Move k s (.outside p) s (.outside p') new
  | begin (s : Sight) (p : Bool) : Move .begins s (.outside p) s (.visit s.removed false) none
  | hit (s : Sight) (d l : Bool) (pending : s.removed = true) (here : s.connectors = true) :
      Move .visits s (.visit d l) { s with connectors := false } (.visit false l) none
  | miss (s : Sight) (d l : Bool) (pending : s.removed = true) (gone : s.connectors = false) :
      Move .visits s (.visit d l) s (.check true false l) none
  | other (s : Sight) (d l : Bool) : Move .quiet s (.visit d l) s (.check false d l) none
  | found (s : Sight) (d l : Bool) (here : s.reconnecting = true) :
      Move .quiet s (.check true d l) s (.visit d true) none
  | lost (s : Sight) (d l : Bool) (gone : s.reconnecting = false) :
      Move .quiet s (.check true d l) s (.visit d l) none
  | back (s : Sight) (d l : Bool) : Move .quiet s (.check false d l) s (.visit d l) none
  | finish (s : Sight) (d l : Bool) (met : ¬ (d = true ∧ s.removed = true)) :
      Move .quiet s (.visit d l) s (.clear l) none
  | clear (s : Sight) (l : Bool) :
      Move .quiet s (.clear l) { s with removed := false } (.refill l) none
  | refill (s : Sight) :
      Move .quiet s (.refill true) { s with removed := true } (.refill false) none
  | leave (s : Sight) : Move .quiet s (.refill false) s (.outside false) none
  | take (s : Sight) (here : s.connectors = true) :
      Move .carries s (.outside true) { s with connectors := false } .moving none
  | mark (s : Sight) (gone : s.reconnecting = false) :
      Move .carries s .moving { s with reconnecting := true } (.outside false) (some .running)
  | ending (s : Sight) (here : s.reconnecting = true) :
      Move .carries s .running { s with reconnecting := false } .moving none
  | settle (s : Sight) :
      Move .carries s .moving { s with connectors := true } (.outside false) none
  | request (s : Sight) :
      Move .requests s (.outside false) { s with removed := true, wanted := false }
        (.outside false) none

theorem Move.same {k : Kind} {s : Sight} {v : View} : Move k s v s v none := .stay _ _ _ _ nofun

section
variable {data : ConnectorManagerData Url} {take : Option Url} {due later : Finset Url}
  {phase : Collect Url} {other : Url} {target : Option Url}

attribute [local simp] Collect.kind Collect.view Thread.kind Thread.view ConnectorManagerData.sight
  ConnectorManagerData.lastCommand Command.url Command.isAdd

/-- The next phase of a collection is a move, for each URL. -/
def Collect.Moves (phase : Collect Url) : Prop :=
  ∀ {data data' : ConnectorManagerData Url} {take : Option Url} {phase' : Collect Url}
    (picks : Bool)
    (url : Url), phase.next data take = (data', phase') →
      Move (phase.kind take url) (data.sight url) (phase.view picks url) (data'.sight url)
        (phase'.view picks url) none

/-- A URL is taken out of `connectors`, or it has to be looked for in `reconnecting`. -/
theorem Collect.visit_move : (Collect.visit due later).Moves := by
  intro data data' take phase' picks url next
  cases take with
  | none =>
    simp only [Collect.next] at next
    split at next <;> cases next
    · rename_i disjoint
      refine .finish _ _ _ ?_
      rintro ⟨inDue, inRemoved⟩
      exact Finset.disjoint_left.mp disjoint (by simpa using inDue) (by simpa using inRemoved)
    · exact .same
  | some other =>
    simp only [Collect.next] at next
    by_cases same : other = url
    · subst same
      split at next
      · rename_i pending
        split at next <;> cases next
        · rename_i here
          have move := Move.hit (data.sight other) (other ∈ due) (other ∈ later)
            (by simpa using pending) (by simpa using here)
          simpa using move
        · rename_i gone
          have move := Move.miss (data.sight other) (other ∈ due) (other ∈ later)
            (by simpa using pending) (by simpa using gone)
          simpa using move
      · cases next
        exact .same
    · split at next
      · split at next <;> cases next
        · have move := @Move.same .quiet (data.sight url) (.visit (url ∈ due) (url ∈ later))
          simpa [same, Ne.symm same] using move
        · have move := Move.other (data.sight url) (url ∈ due) (url ∈ later)
          simpa [same, Ne.symm same] using move
      · cases next
        exact .same

/-- A URL that is being reconnected is kept for later. -/
theorem Collect.check_move : (Collect.check other due later).Moves := by
  intro data data' take phase' picks url next
  simp only [Collect.next] at next
  by_cases same : other = url
  · subst same
    split at next <;> cases next
    · rename_i here
      have move := Move.found (data.sight other) (other ∈ due) (other ∈ later) (by simpa using here)
      simpa using move
    · rename_i gone
      have move := Move.lost (data.sight other) (other ∈ due) (other ∈ later) (by simpa using gone)
      simpa using move
  · have move := Move.back (data.sight url) (url ∈ due) (url ∈ later)
    split at next <;> cases next
    · simpa [same, Ne.symm same] using move
    · simpa [same] using move

/-- What was kept for later is put back. -/
theorem Collect.refill_move : (Collect.refill later).Moves := by
  intro data data' take phase' picks url next
  cases take with
  | none =>
    simp only [Collect.next] at next
    split at next <;> cases next
    · rename_i empty
      have move := Move.leave (data.sight url)
      simpa [empty] using move
    · exact .same
  | some other =>
    simp only [Collect.next] at next
    split at next <;> cases next
    · rename_i inLater
      by_cases same : other = url
      · subst same
        have move := Move.refill (data.sight other)
        simpa [inLater] using move
      · have move := @Move.same .quiet (data.sight url) (.refill (url ∈ later))
        simpa [Ne.symm same] using move
    · exact .same

/-- Reading `connectors` picks URLs that are there. -/
theorem Collect.read_move {all : Finset Url} : (Collect.read due all).Moves := by
  intro data data' take phase' picks url next
  cases take with
  | none | some other =>
    simp only [Collect.next] at next
    split at next <;> cases next
    · refine .look _ _ _ _ _ ?_ (by simp)
      simp
      grind
    · exact .same

/-- Sifting them picks no more. -/
theorem Collect.sift_move {rest dead : Finset Url} : (Collect.sift rest dead).Moves := by
  intro data data' take phase' picks url next
  cases take with
  | none =>
    simp only [Collect.next] at next
    split at next <;> cases next
    · exact .look _ _ _ _ _ (by simp +contextual) (by simp)
    · exact .same
  | some other =>
    simp only [Collect.next] at next
    split at next
    · split at next <;> cases next
      all_goals
        refine .look _ _ _ _ _ ?_ (by simp)
        simp
        grind
    · cases next
      exact .same

theorem Collect.next_move : phase.Moves := by
  intro data data' take phase' picks url next
  cases phase with
  | visit due later => exact Collect.visit_move picks url next
  | check other due later => exact Collect.check_move picks url next
  | clear later =>
    cases next
    have move := Move.clear (data.sight url) (url ∈ later)
    simpa using move
  | refill later => exact Collect.refill_move picks url next
  | read due all => exact Collect.read_move picks url next
  | sift rest dead => exact Collect.sift_move picks url next
  | done dead =>
    cases next
    exact .same

theorem operate_tick_collect (working : ∀ dead, phase ≠ .done dead) :
    (Thread.tick (.collect phase)).operate data take =
      some ((phase.next data take).1, .tick (.collect (phase.next data take).2), none) := by
  cases phase with
  | done dead => exact absurd rfl (working dead)
  | _ => rfl

theorem operate_call_collect {connUrls : Finset Url} (working : ∀ dead, phase ≠ .done dead) :
    (Thread.call target (.collect connUrls phase)).operate data take =
      some ((phase.next data take).1, .call target (.collect connUrls (phase.next data take).2),
        none) := by
  cases phase with
  | done dead => exact absurd rfl (working dead)
  | _ => rfl

omit [DecidableEq Url] in
theorem Collect.done_or_working (phase : Collect Url) :
    (∃ dead, phase = .done dead) ∨ ∀ dead, phase ≠ .done dead := by
  cases phase with
  | done dead => exact .inl ⟨dead, rfl⟩
  | _ =>
    right
    intro dead same
    cases same

theorem view_found (target : Option Url) (listed : Finset (Connector Url)) :
    (Thread.call target (.found target listed)).view url = .outside false := by
  cases target with
  | none => rfl
  | some wanted =>
    simp only [CallPhase.found]
    split <;> rfl

/-- A turn of a thread is a move, for each URL. -/
def Thread.Moves (thread : Thread Url) : Prop :=
  ∀ {data data' : ConnectorManagerData Url} {take : Option Url} {thread' : Thread Url}
    {new : Option (Thread Url)} (url : Url), thread.operate data take = some (data', thread', new) →
      Move (thread.kind take url) (data.sight url) (thread.view url) (data'.sight url)
        (thread'.view url) (new.map (Thread.view url))

theorem tick_move {phase : TickPhase Url} : (Thread.tick phase).Moves := by
  intro data data' take thread' new url operates
  cases phase with
  | idle =>
    cases operates
    exact .begin _ _
  | collect phase =>
    obtain ⟨dead, rfl⟩ | working := phase.done_or_working
    · simp only [Thread.operate] at operates
      split at operates <;> cases operates
      · exact .look _ _ _ _ _ (by simp) (by simp)
      · exact .look _ _ _ _ _ (by simp +contextual) (by simp)
    · rw [operate_tick_collect working] at operates
      cases operates
      exact Collect.next_move true url rfl
  | reconnect dead =>
    cases take with
    | none =>
      simp only [Thread.operate] at operates
      split at operates <;> cases operates
      · exact .look _ _ _ _ _ (by simp) (by simp)
      · exact .same
    | some other =>
      simp only [Thread.operate] at operates
      split at operates
      · rename_i inDead
        split at operates <;> cases operates
        rename_i here
        by_cases same : other = url
        · subst same
          have move := Move.take (data.sight other) (by simpa using here)
          simpa [inDead] using move
        · have move := @Move.same .quiet (data.sight url) (.outside (url ∈ dead))
          simpa [same, Ne.symm same] using move
      · cases operates
        exact .same
  | hold other dead =>
    simp only [Thread.operate] at operates
    split at operates <;> cases operates
    rename_i gone
    by_cases same : other = url
    · subst same
      have move := Move.mark (data.sight other) (by simpa using gone)
      simpa using move
    · have move := Move.stay .quiet (data.sight url) (.outside (url ∈ dead))
        (some (.outside false)) (by simp)
      simpa [same, Ne.symm same] using move

theorem call_move {phase : CallPhase Url} : (Thread.call target phase).Moves := by
  intro data data' take thread' new url operates
  cases phase with
  | connectors due connUrls =>
    cases take with
    | none =>
      simp only [Thread.operate] at operates
      split at operates <;> cases operates
      · exact .begin _ _
      · exact .same
    | some other =>
      simp only [Thread.operate] at operates
      split at operates <;> cases operates <;> exact .same
  | collect connUrls phase =>
    obtain ⟨dead, rfl⟩ | working := phase.done_or_working
    · cases operates
      exact .same
    · rw [operate_call_collect working] at operates
      cases operates
      exact Collect.next_move false url rfl
  | reconnecting connUrls deadUrls due reconnectingUrls =>
    cases take with
    | none =>
      simp only [Thread.operate] at operates
      split at operates <;> cases operates
      · rw [view_found]
        exact .same
      · exact .same
    | some other =>
      simp only [Thread.operate] at operates
      split at operates <;> cases operates <;> exact .same
  | insert other =>
    cases operates
    by_cases same : other = url
    · subst same
      have move := Move.request (data.sight other)
      simpa using move
    · have move := @Move.same .quiet (data.sight url) (.outside false)
      simpa [same, Ne.symm same] using move
  | ended listed =>
    cases operates
    exact .same

theorem task_move {phase : TaskPhase} : (Thread.task other phase).Moves := by
  intro data data' take thread' new url operates
  cases phase with
  | running =>
    simp only [Thread.operate] at operates
    split at operates <;> cases operates
    rename_i here
    by_cases same : other = url
    · subst same
      have move := Move.ending (data.sight other) (by simpa using here)
      simpa using move
    · have move := @Move.same .quiet (data.sight url) (.outside false)
      simpa [same, Ne.symm same] using move
  | inserting =>
    cases operates
    by_cases same : other = url
    · subst same
      have move := Move.settle (data.sight other)
      simpa using move
    · have move := @Move.same .quiet (data.sight url) (.outside false)
      simpa [same, Ne.symm same] using move
  | ended =>
    cases operates
    exact .same

theorem operate_move {thread : Thread Url} : thread.Moves := by
  intro data data' take thread' new url operates
  cases thread with
  | tick phase => exact tick_move url operates
  | call target phase => exact call_move url operates
  | task other phase => exact task_move url operates

end

/-! ## In one place -/

def View.claims : View → Bool
  | .moving | .running => true
  | _ => false

def Stands (s : Sight) : View → Prop
  | .moving => s.connectors = false ∧ s.reconnecting = false
  | .running => s.reconnecting = true
  | _ => True

def Exclusive (s : Sight) : Prop := ¬ (s.connectors = true ∧ s.reconnecting = true)

variable {k : Kind} {s s' : Sight} {v v' w : View} {new : Option View}

section
variable (move : Move k s v s' v' new)
include move

theorem Move.exclusive (exclusive : Exclusive s) (stands : Stands s v) : Exclusive s' := by
  cases move <;> simp_all [Exclusive, Stands]

theorem Move.stands (exclusive : Exclusive s) (stands : Stands s v) :
    Stands s' v' ∧ ∀ n ∈ new, Stands s' n := by
  cases move <;> simp_all [Exclusive, Stands]

/-- A thread that claims the URL is alone with that. -/
theorem Move.others (exclusive : Exclusive s) (stands : Stands s w)
    (alone : ¬ (v.claims = true ∧ w.claims = true)) :
    Stands s' w ∧ ¬ (v'.claims = true ∧ w.claims = true) ∧
      ∀ n ∈ new, ¬ (n.claims = true ∧ w.claims = true) := by
  cases move <;> cases w <;> simp_all [Exclusive, Stands, View.claims]

theorem Move.one_claims : ∀ n ∈ new, ¬ (n.claims = true ∧ v'.claims = true) := by
  cases move <;> simp_all [View.claims]

end

/-- The URL is in at most one set, and a thread that has it has it alone. -/
def Placed (url : Url) (m : Manager Url) : Prop :=
  m.Sound (fun data => Exclusive (data.sight url))
    (fun data thread => Stands (data.sight url) (thread.view url))
    (fun t t' => ¬ ((t.view url).claims = true ∧ (t'.view url).claims = true))

/-- The URL is not added while it is being reconnected or on its way. -/
def AddedApart (url : Url) (m : Manager Url) : Event Url → Prop
  | .add other => other = url →
    url ∉ m.shared.reconnecting ∧ ∀ thread ∈ m.tasks, thread.view url ≠ .moving
  | _ => True

theorem sight_add (data : ConnectorManagerData Url) (other url : Url) :
    (data.addConnectorByUrl other).sight url =
      if other = url then { data.sight url with connectors := true, wanted := true }
      else data.sight url := by
  by_cases same : other = url
  · rw [if_pos same, Sight.mk.injEq]
    refine ⟨by simp [ConnectorManagerData.addConnectorByUrl, same], rfl, rfl, ?_⟩
    simp [ConnectorManagerData.addConnectorByUrl, ConnectorManagerData.lastCommand, Command.url,
      Command.isAdd, same]
  · rw [if_neg same, Sight.mk.injEq]
    refine ⟨by simp [ConnectorManagerData.addConnectorByUrl, Ne.symm same], rfl, rfl, ?_⟩
    simp [ConnectorManagerData.addConnectorByUrl, ConnectorManagerData.lastCommand,
      Command.url, same]

variable {m m' : Manager Url} {event : Event Url}

variable {thread : Thread Url}

theorem new_placed : Placed url (Manager.new : Manager Url) :=
  .single (by simp [Exclusive]) trivial

theorem step_placed (placed : Placed url m) (apart : AddedApart url m event)
    (stepped : m.step event = some m') : Placed url m' := by
  have symm (t t' : Thread Url) :=
    mt (@And.symm ((t'.view url).claims = true) ((t.view url).claims = true))
  cases Manager.step_cases stepped with
  | absent i take gone => exact placed
  | turn i take thread thread' data here operates =>
    have move := operate_move url operates
    have stands := placed.each i thread here
    apply placed.turn symm here (move.exclusive placed.shared stands)
      (move.stands placed.shared stands).1
    intro other alone kept
    obtain ⟨still, alone, -⟩ := move.others placed.shared kept alone
    exact ⟨still, alone⟩
  | fork i take thread thread' task data here operates =>
    have move := operate_move url operates
    have stands := placed.each i thread here
    obtain ⟨own, started⟩ := move.stands placed.shared stands
    apply placed.fork symm (move.exclusive placed.shared stands) own (started _ rfl)
      (move.one_claims _ rfl)
    intro j other ne found
    obtain ⟨still, alone, alone'⟩ := move.others placed.shared (placed.each j other found)
      (placed.pairs i j thread other here found (Ne.symm ne))
    exact ⟨still, alone, alone' _ rfl⟩
  | add other =>
    by_cases same : other = url
    · obtain ⟨free, settled⟩ := apart same
      refine ⟨?_, fun i thread found => ?_, placed.pairs⟩
      · show Exclusive ((m.shared.addConnectorByUrl other).sight url)
        rw [sight_add, if_pos same]
        simp [Exclusive, free]
      · show Stands ((m.shared.addConnectorByUrl other).sight url) _
        have stands := placed.each i thread found
        have still := settled thread (List.mem_of_getElem? found)
        rw [sight_add, if_pos same]
        cases view : thread.view url <;> simp_all [Stands]
    · have unseen := sight_add m.shared other url
      rw [if_neg same] at unseen
      apply placed.change
      · rw [unseen]
        exact placed.shared
      · intro thread kept
        rw [unseen]
        exact kept
  | call target =>
    apply placed.spawn symm placed.shared
    · exact trivial
    · intro i thread found
      refine ⟨placed.each i thread found, ?_⟩
      rintro ⟨claims, -⟩
      cases claims
  | alive urls => exact placed.change placed.shared fun thread kept => kept

/-! ## What the tick has collected -/

def Thread.isTick : Thread Url → Bool
  | .tick _ => true
  | _ => false

/-- Only the tick collects URLs, and they are in `connectors`. -/
def Picked (url : Url) (m : Manager Url) : Prop :=
  m.Sound (fun _ => True) (fun data thread => thread.view url = .outside true →
    url ∈ data.connectors)
    (fun t t' => ¬ (t.isTick = true ∧ t'.isTick = true))

/-- The URL is not met in `removed_conn_urls` while it is collected. -/
def VisitedApart (url : Url) (m : Manager Url) : Event Url → Prop
  | .turn i take => ∀ thread ∈ m.tasks[i]?, thread.kind take url = .visits →
    ∀ other ∈ m.tasks, other.view url ≠ .outside true
  | _ => True

theorem isTick_of_picked (picked : thread.view url = .outside true) :
    thread.isTick = true := by
  cases thread with
  | tick phase => rfl
  | call target phase =>
    cases phase with
    | collect connUrls phase => cases phase <;> simp [Thread.view, Collect.view] at picked
    | _ => simp [Thread.view] at picked
  | task other phase =>
    cases phase with
    | ended => simp [Thread.view] at picked
    | _ =>
      simp only [Thread.view] at picked
      split at picked <;> simp at picked

theorem operate_isTick {data data' : ConnectorManagerData Url} {take : Option Url}
    {thread' : Thread Url} {new : Option (Thread Url)}
    (operates : thread.operate data take = some (data', thread', new)) :
    thread'.isTick = thread.isTick ∧ ∀ task ∈ new, task.isTick = false := by
  unfold Thread.operate at operates
  split at operates
  all_goals
    repeat' split at operates
    all_goals
      cases operates <;> refine ⟨rfl, fun task started => ?_⟩ <;> cases started <;> rfl

theorem Move.picked (move : Move k s v s' v' new) (kept : v = .outside true → s.connectors = true) :
    (v' = .outside true → s'.connectors = true) ∧ ∀ n ∈ new, n ≠ .outside true := by
  cases move with
  | look k s p p' new seen other =>
    refine ⟨fun picked => ?_, fun n started => by simp [other n started]⟩
    obtain old | here := seen (View.outside.inj picked)
    · exact kept (congrArg View.outside old)
    · exact here
  | _ => simp_all

/-- Only a visit, or taking the URL that it has collected itself, takes it out. -/
theorem Move.connectors_stay
    (move : Move k s v s' v' new) (unvisited : k ≠ .visits) (unpicked : v ≠ .outside true)
    (here : s.connectors = true) : s'.connectors = true := by
  cases move <;> simp_all

theorem new_picked : Picked url (Manager.new : Manager Url) := .single trivial nofun

theorem step_picked (picked : Picked url m) (apart : VisitedApart url m event)
    (stepped : m.step event = some m') : Picked url m' := by
  have symm (t t' : Thread Url) := mt (@And.symm (t'.isTick = true) (t.isTick = true))
  -- what another thread has collected stays in `connectors`
  have stay {i : Nat} {take : Option Url} {thread thread' : Thread Url}
      {data : ConnectorManagerData Url} {new : Option (Thread Url)}
      (here : m.tasks[i]? = some thread) (event_eq : event = .turn i take)
      (operates : thread.operate m.shared take = some (data, thread', new)) (j : Nat)
      (other : Thread Url) (ne : j ≠ i) (found : m.tasks[j]? = some other)
      (collected : other.view url = .outside true) : url ∈ data.connectors := by
    subst event_eq
    have unvisited : thread.kind take url ≠ .visits := by
      intro visits
      exact apart thread here visits other (List.mem_of_getElem? found) collected
    have unpicked : thread.view url ≠ .outside true := by
      intro own
      exact picked.pairs i j thread other here found (Ne.symm ne)
        ⟨isTick_of_picked own, isTick_of_picked collected⟩
    have stays := (operate_move url operates).connectors_stay unvisited unpicked
      (by simpa using picked.each j other found collected)
    simpa using stays
  cases Manager.step_cases stepped with
  | absent i take gone => exact picked
  | turn i take thread thread' data here operates =>
    obtain ⟨tick, -⟩ := operate_isTick operates
    obtain ⟨own, -⟩ := (operate_move url operates).picked fun collected => by
      simpa using picked.each i thread here collected
    apply picked.turn_at symm trivial (fun collected => by simpa using own collected)
    intro j other ne found
    refine ⟨stay here rfl operates j other ne found, ?_⟩
    rw [tick]
    exact picked.pairs i j thread other here found (Ne.symm ne)
  | fork i take thread thread' task data here operates =>
    obtain ⟨tick, plain⟩ := operate_isTick operates
    obtain ⟨own, started⟩ := (operate_move url operates).picked fun collected => by
      simpa using picked.each i thread here collected
    have alone (other : Thread Url) : ¬ (task.isTick = true ∧ other.isTick = true) := by
      simp [plain task rfl]
    apply picked.fork symm trivial (fun collected => by simpa using own collected)
      (fun collected => absurd collected (started _ rfl)) (alone thread')
    intro j other ne found
    refine ⟨stay here rfl operates j other ne found, ?_, alone other⟩
    rw [tick]
    exact picked.pairs i j thread other here found (Ne.symm ne)
  | add other =>
    apply picked.change trivial
    intro thread kept collected
    exact Finset.mem_insert_of_mem (kept collected)
  | call target =>
    apply picked.spawn symm trivial
    · intro collected
      cases collected
    · intro j thread found
      refine ⟨picked.each j thread found, ?_⟩
      simp [Thread.isTick]
  | alive urls => exact picked.change trivial fun thread kept => kept

end PeerLink.ManualConnector
