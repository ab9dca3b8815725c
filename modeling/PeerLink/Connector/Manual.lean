import Mathlib.Data.Finset.Image
import PeerLink.Schedule.Along
import PeerLink.Schedule.Pool

/-!
# The manual connector

The URLs that the user wants to be connected to are in `connectors`. At every tick those that have
no connection move to `reconnecting` and get a task, which moves them back when it is done. A
removal is only noted in `removed_conn_urls`; the next call of `collect_dead_conns` carries it
out, whether the tick makes it or a listing. The sets are `DashSet`s without a common lock, so the
tick, the calls and the tasks take turns at every single operation on a set.
-/

namespace PeerLink.ManualConnector

open Schedule

variable {Url : Type} [DecidableEq Url]

inductive Command (Url : Type) where
  | add (url : Url)
  | remove (url : Url)
  deriving DecidableEq

def Command.url : Command Url → Url
  | .add url | .remove url => url

def Command.isAdd : Command Url → Bool
  | .add _ => true
  | .remove _ => false

/-- `commands` are the commands that have taken effect, the latest first. No code reads it. -/
structure ConnectorManagerData (Url : Type) where
  connectors : Finset Url
  reconnecting : Finset Url
  aliveConnUrls : Finset Url
  removedConnUrls : Finset Url
  commands : List (Command Url)

variable (data : ConnectorManagerData Url)

def ConnectorManagerData.lastCommand (url : Url) : Option (Command Url) :=
  data.commands.find? fun command => command.url = url

def ConnectorManagerData.addConnectorByUrl (url : Url) : ConnectorManagerData Url :=
  { data with
    connectors := insert url data.connectors
    commands := .add url :: data.commands }

inductive ConnectorStatus where
  | connected
  | disconnected
  | connecting
  deriving DecidableEq

structure Connector (Url : Type) where
  url : Url
  status : ConnectorStatus
  deriving DecidableEq

/-- What `list_connectors` makes of the sets it has read. -/
def listing (connUrls deadUrls reconnectingUrls : Finset Url) : Finset (Connector Url) :=
  (connUrls.image fun url => ⟨url, if url ∈ deadUrls then .disconnected else .connected⟩) ∪
    reconnectingUrls.image fun url => ⟨url, .connecting⟩

/-! ## `collect_dead_conns` -/

/-- Where a call of `collect_dead_conns` is. An iteration over a `DashSet` meets every key that
is in the set all the time; `due` are those it has still to meet. -/
inductive Collect (Url : Type) where
  /-- the loop over `removed_conn_urls`, with the URLs in `remove_later` -/
  | visit (due later : Finset Url)
  /-- `connectors` does not have `url`; `reconnecting` is next -/
  | check (url : Url) (due later : Finset Url)
  | clear (later : Finset Url)
  /-- the loop over `remove_later` -/
  | refill (later : Finset Url)
  /-- reads `connectors` into `all_urls` -/
  | read (due all : Finset Url)
  /-- the loop over `all_urls` -/
  | sift (rest dead : Finset Url)
  | done (dead : Finset Url)
  deriving DecidableEq

/-- The call begins with the loop of `handle_remove_connector`. -/
def Collect.start : Collect Url :=
  .visit data.removedConnUrls ∅

/-- One operation. In a loop `take` is the key that comes next, `none` at its end. -/
def Collect.next (take : Option Url) : Collect Url → ConnectorManagerData Url × Collect Url
  | .visit due later =>
    match take with
    | some url =>
      if url ∈ data.removedConnUrls then
        if url ∈ data.connectors then
          ({ data with connectors := data.connectors.erase url }, .visit (due.erase url) later)
        else
          (data, .check url (due.erase url) later)
      else
        (data, .visit due later)
    | none =>
      if Disjoint due data.removedConnUrls then (data, .clear later) else (data, .visit due later)
  | .check url due later =>
    if url ∈ data.reconnecting then
      (data, .visit due (insert url later))
    else
      (data, .visit due later)
  | .clear later => ({ data with removedConnUrls := ∅ }, .refill later)
  | .refill later =>
    match take with
    | some url =>
      if url ∈ later then
        ({ data with removedConnUrls := insert url data.removedConnUrls },
          .refill (later.erase url))
      else
        (data, .refill later)
    | none => if later = ∅ then (data, .read data.connectors ∅) else (data, .refill later)
  | .read due all =>
    match take with
    | some url =>
      if url ∈ data.connectors then (data, .read (due.erase url) (insert url all))
      else (data, .read due all)
    | none => if Disjoint due data.connectors then (data, .sift all ∅) else (data, .read due all)
  | .sift rest dead =>
    match take with
    | some url =>
      if url ∈ rest then
        if url ∈ data.aliveConnUrls then (data, .sift (rest.erase url) dead)
        else (data, .sift (rest.erase url) (insert url dead))
      else
        (data, .sift rest dead)
    | none => if rest = ∅ then (data, .done dead) else (data, .sift rest dead)
  | .done dead => (data, .done dead)

/-! ## The threads -/

/-- `conn_mgr_reconn_routine`. -/
inductive TickPhase (Url : Type) where
  | idle
  | collect (phase : Collect Url)
  /-- the loop over `dead_urls` -/
  | reconnect (dead : Finset Url)
  /-- `url` is out of `connectors` and goes into `reconnecting` -/
  | hold (url : Url) (dead : Finset Url)
  deriving DecidableEq

/-- `list_connectors`, and what `remove_connector` does after it. -/
inductive CallPhase (Url : Type) where
  /-- reads `connectors` -/
  | connectors (due connUrls : Finset Url)
  | collect (connUrls : Finset Url) (phase : Collect Url)
  /-- reads `reconnecting` -/
  | reconnecting (connUrls deadUrls due reconnectingUrls : Finset Url)
  /-- `removed_conn_urls.insert(url)` -/
  | insert (url : Url)
  | ended (listed : Finset (Connector Url))
  deriving DecidableEq

inductive TaskPhase where
  /-- up to `reconnecting.remove` -/
  | running
  /-- `connectors.insert` -/
  | inserting
  | ended
  deriving DecidableEq

/-- A call is a `list_connectors`, or a `remove_connector` of `target`. -/
inductive Thread (Url : Type) where
  | tick (phase : TickPhase Url)
  | call (target : Option Url) (phase : CallPhase Url)
  | task (url : Url) (phase : TaskPhase)
  deriving DecidableEq

/-- A call that has read everything. -/
def CallPhase.found (target : Option Url) (listed : Finset (Connector Url)) : CallPhase Url :=
  match target with
  | some url => if ∃ connector ∈ listed, connector.url = url then .insert url else .ended listed
  | none => .ended listed

/-- One operation of a thread, with the task that it starts; `none` is a panic. -/
def Thread.operate (take : Option Url) :
    Thread Url → Option (ConnectorManagerData Url × Thread Url × Option (Thread Url))
  | .tick .idle => some (data, .tick (.collect (.start data)), none)
  | .tick (.collect (.done dead)) =>
    if dead = ∅ then some (data, .tick .idle, none) else some (data, .tick (.reconnect dead), none)
  | .tick (.collect phase) =>
    let (data, phase) := phase.next data take
    some (data, .tick (.collect phase), none)
  | .tick (.reconnect dead) =>
    match take with
    | some url =>
      if url ∈ dead then
        if url ∈ data.connectors then
          some ({ data with connectors := data.connectors.erase url }, .tick (.hold url dead), none)
        else
          none
      else
        some (data, .tick (.reconnect dead), none)
    | none =>
      if dead = ∅ then some (data, .tick .idle, none)
      else some (data, .tick (.reconnect dead), none)
  | .tick (.hold url dead) =>
    if url ∈ data.reconnecting then
      none
    else
      some ({ data with reconnecting := insert url data.reconnecting },
        .tick (.reconnect (dead.erase url)), some (.task url .running))
  | .call target (.connectors due connUrls) =>
    match take with
    | some url =>
      if url ∈ data.connectors then
        some (data, .call target (.connectors (due.erase url) (insert url connUrls)), none)
      else
        some (data, .call target (.connectors due connUrls), none)
    | none =>
      if Disjoint due data.connectors then
        some (data, .call target (.collect connUrls (.start data)), none)
      else
        some (data, .call target (.connectors due connUrls), none)
  | .call target (.collect connUrls (.done dead)) =>
    some (data, .call target (.reconnecting connUrls dead data.reconnecting ∅), none)
  | .call target (.collect connUrls phase) =>
    let (data, phase) := phase.next data take
    some (data, .call target (.collect connUrls phase), none)
  | .call target (.reconnecting connUrls deadUrls due reconnectingUrls) =>
    match take with
    | some url =>
      if url ∈ data.reconnecting then
        some (data, .call target
          (.reconnecting connUrls deadUrls (due.erase url) (insert url reconnectingUrls)), none)
      else
        some (data, .call target (.reconnecting connUrls deadUrls due reconnectingUrls), none)
    | none =>
      if Disjoint due data.reconnecting then
        some (data, .call target (.found target (listing connUrls deadUrls reconnectingUrls)), none)
      else
        some (data, .call target (.reconnecting connUrls deadUrls due reconnectingUrls), none)
  | .call target (.insert url) =>
    some ({ data with
        removedConnUrls := insert url data.removedConnUrls
        commands := .remove url :: data.commands },
      .call target (.ended ∅), none)
  | .task url .running =>
    if url ∈ data.reconnecting then
      some ({ data with reconnecting := data.reconnecting.erase url }, .task url .inserting, none)
    else
      none
  | .task url .inserting =>
    some ({ data with connectors := insert url data.connectors }, .task url .ended, none)
  | thread => some (data, thread, none)

inductive Event (Url : Type) where
  /-- thread `i` makes its next operation -/
  | turn (i : Nat) (take : Option Url)
  /-- `add_connector_by_url` -/
  | add (url : Url)
  /-- `list_connectors`, or `remove_connector` of `target`, is called -/
  | call (target : Option Url)
  /-- the handler of connection events changes `alive_conn_urls` -/
  | alive (urls : Finset Url)
  deriving DecidableEq

abbrev Manager (Url : Type) := Pool (ConnectorManagerData Url) (Thread Url)

/-- Thread `0` is the tick, for good. -/
def Manager.new : Manager Url := ⟨⟨∅, ∅, ∅, ∅, []⟩, [.tick .idle]⟩

def Manager.step (m : Manager Url) : Event Url → Option (Manager Url)
  | .turn i take =>
    match m.tasks[i]? with
    | none => some m
    | some thread =>
      match thread.operate m.shared take with
      | none => none
      | some (data, thread, none) => some (m.turn i data thread)
      | some (data, thread, some task) => some ((m.turn i data thread).spawn data task)
  | .add url => some (m.change (m.shared.addConnectorByUrl url))
  | .call target =>
    some (m.spawn m.shared (.call target (.connectors m.shared.connectors ∅)))
  | .alive urls => some (m.change { m.shared with aliveConnUrls := urls })

/-- What a step can be. -/
inductive Manager.Step (m : Manager Url) : Event Url → Manager Url → Prop
  | absent (i : Nat) (take : Option Url) (gone : m.tasks[i]? = none) : Step m (.turn i take) m
  | turn (i : Nat) (take : Option Url) (thread thread' : Thread Url)
      (data : ConnectorManagerData Url) (here : m.tasks[i]? = some thread)
      (operates : thread.operate m.shared take = some (data, thread', none)) :
      Step m (.turn i take) (m.turn i data thread')
  | fork (i : Nat) (take : Option Url) (thread thread' task : Thread Url)
      (data : ConnectorManagerData Url) (here : m.tasks[i]? = some thread)
      (operates : thread.operate m.shared take = some (data, thread', some task)) :
      Step m (.turn i take) ((m.turn i data thread').spawn data task)
  | add (url : Url) : Step m (.add url) (m.change (m.shared.addConnectorByUrl url))
  | call (target : Option Url) : Step m (.call target)
      (m.spawn m.shared (.call target (.connectors m.shared.connectors ∅)))
  | alive (urls : Finset Url) :
      Step m (.alive urls) (m.change { m.shared with aliveConnUrls := urls })

theorem Manager.step_cases {m m' : Manager Url} {event : Event Url}
    (stepped : m.step event = some m') : m.Step event m' := by
  cases event with
  | turn i take =>
    simp only [Manager.step] at stepped
    split at stepped
    · rename_i gone
      cases stepped
      exact .absent i take gone
    · rename_i thread here
      split at stepped
      · cases stepped
      · rename_i data thread' operates
        cases stepped
        exact .turn i take thread thread' data here operates
      · rename_i data thread' task operates
        cases stepped
        exact .fork i take thread thread' task data here operates
  | add url =>
    cases stepped
    exact .add url
  | call target =>
    cases stepped
    exact .call target
  | alive urls =>
    cases stepped
    exact .alive urls

end PeerLink.ManualConnector
