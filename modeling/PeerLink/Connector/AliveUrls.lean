import Mathlib.Data.Finset.Basic
import PeerLink.Schedule.Along

/-!
# The URLs of live connections

The manual connector keeps the set of URLs that it is connected to, from events about connections
that come and go. When it lags behind it drops the events and collects the URLs of the connections
that the peer map lists. The set does not know how many connections have a URL, only the events tell
clients apart, and the list of the peer map is kept by another task than the one that closes a
connection.
-/

namespace PeerLink.AliveUrls

open Schedule

structure PeerConnInfo (Url : Type) where
  isClient : Bool
  remoteAddr : Url
  deriving DecidableEq

inductive GlobalCtxEvent (Url : Type) where
  | peerConnAdded (conn : PeerConnInfo Url)
  | peerConnRemoved (conn : PeerConnInfo Url)
  deriving DecidableEq

/-- `aliveConns` is the list of the peer map, `conns` are those of the peers. `unissued` are the
events of connections that have come or gone and whose task has still to issue them. -/
structure AliveState (Url : Type) where
  aliveConns : List (PeerConnInfo Url)
  conns : List (PeerConnInfo Url)
  unissued : List (GlobalCtxEvent Url)
  pending : List (GlobalCtxEvent Url)
  rebuilding : Bool
  aliveConnUrls : Finset Url

/-- The statements of the tasks that add and close connections, and of the one that handles the
events. -/
inductive AliveStep (Url : Type) where
  /-- `maintain_alive_conns` and, when the connection is closed, its task -/
  | list (conn : PeerConnInfo Url)
  | unlist (conn : PeerConnInfo Url)
  | add (conn : PeerConnInfo Url)
  | remove (conn : PeerConnInfo Url)
  | issue (event : GlobalCtxEvent Url)
  | handle
  /-- the receiver has lagged behind -/
  | resubscribe
  | collect

variable {Url : Type} [DecidableEq Url]

def handleEvent (urls : Finset Url) : GlobalCtxEvent Url → Finset Url
  | .peerConnAdded conn => if conn.isClient then insert conn.remoteAddr urls else urls
  | .peerConnRemoved conn => if conn.isClient then urls.erase conn.remoteAddr else urls

def urls (conns : List (PeerConnInfo Url)) : Finset Url := (conns.map (·.remoteAddr)).toFinset

def clientUrls (conns : List (PeerConnInfo Url)) : Finset Url := urls (conns.filter (·.isClient))

/-- Whether the URL is alive according to an event, if it is about a client with it. -/
def GlobalCtxEvent.verdict (url : Url) : GlobalCtxEvent Url → Option Bool
  | .peerConnAdded conn => if conn.isClient ∧ conn.remoteAddr = url then some true else none
  | .peerConnRemoved conn => if conn.isClient ∧ conn.remoteAddr = url then some false else none

/-- The verdict of the last of the events that has one. -/
def lastVerdict (url : Url) (events : List (GlobalCtxEvent Url)) : Option Bool :=
  events.foldl (fun said event => (event.verdict url).or said) none

variable {conn : PeerConnInfo Url} {conns : List (PeerConnInfo Url)} {url : Url}

theorem mem_clientUrls :
    url ∈ clientUrls conns ↔ ∃ conn ∈ conns, conn.isClient = true ∧ conn.remoteAddr = url := by
  simp [clientUrls, urls, and_assoc]

theorem mem_handleEvent {known : Finset Url} {event : GlobalCtxEvent Url} :
    url ∈ handleEvent known event ↔ (event.verdict url).getD (url ∈ known) = true := by
  cases event with
  | peerConnAdded conn | peerConnRemoved conn =>
    by_cases client : conn.isClient = true <;> by_cases here : conn.remoteAddr = url <;>
      simp [handleEvent, GlobalCtxEvent.verdict, client, here, @eq_comm _ url]

theorem lastVerdict_cons (event : GlobalCtxEvent Url) (events : List (GlobalCtxEvent Url)) :
    lastVerdict url (event :: events) = (lastVerdict url events).or (event.verdict url) := by
  unfold lastVerdict
  rw [List.foldl_cons, Option.or_none]
  generalize event.verdict url = said
  induction events using List.reverseRecOn with
  | nil => rfl
  | append_singleton events event ih =>
    rw [List.foldl_concat, List.foldl_concat, ih, Option.or_assoc]

theorem lastVerdict_concat (event : GlobalCtxEvent Url) (events : List (GlobalCtxEvent Url)) :
    lastVerdict url (events ++ [event]) = (event.verdict url).or (lastVerdict url events) :=
  List.foldl_concat ..

theorem mem_clientUrls_cons :
    url ∈ clientUrls (conn :: conns) ↔
      conn.isClient = true ∧ conn.remoteAddr = url ∨ url ∈ clientUrls conns := by
  simp [mem_clientUrls]

theorem mem_clientUrls_erase (mem : conn ∈ conns) :
    url ∈ clientUrls conns ↔
      conn.isClient = true ∧ conn.remoteAddr = url ∨ url ∈ clientUrls (conns.erase conn) := by
  rw [← mem_clientUrls_cons, mem_clientUrls, mem_clientUrls]
  simp only [(List.perm_cons_erase mem).mem_iff]

namespace AliveState

def new : AliveState Url := ⟨[], [], [], [], false, ∅⟩

variable (s : AliveState Url)

def step : AliveStep Url → Option (AliveState Url)
  | .list conn => some { s with aliveConns := conn :: s.aliveConns }
  | .unlist conn =>
    if conn ∈ s.aliveConns then some { s with aliveConns := s.aliveConns.erase conn } else none
  | .add conn =>
    some { s with conns := conn :: s.conns, unissued := .peerConnAdded conn :: s.unissued }
  | .remove conn =>
    if conn ∈ s.conns then
      some { s with
        conns := s.conns.erase conn, unissued := .peerConnRemoved conn :: s.unissued }
    else none
  | .issue event =>
    if event ∈ s.unissued then
      some { s with unissued := s.unissued.erase event, pending := s.pending ++ [event] }
    else none
  | .handle =>
    match s.rebuilding, s.pending with
    | false, event :: rest =>
      some { s with pending := rest, aliveConnUrls := handleEvent s.aliveConnUrls event }
    | _, _ => none
  | .resubscribe => if s.rebuilding then none else some { s with pending := [], rebuilding := true }
  | .collect =>
    if s.rebuilding then some { s with rebuilding := false, aliveConnUrls := urls s.aliveConns }
    else none

/-- No event about a client with the URL has still to be issued. -/
def Quiet (url : Url) : Prop := ∀ event ∈ s.unissued, event.verdict url = none

/-- A client comes or goes when the last event about its URL has been issued, and when it goes no
other client has its URL; a rebuild runs when the list of the peer map is that of the live
connections, and each of them has the URL of a client. -/
def Told : AliveStep Url → Prop
  | .add conn => conn.isClient = true → s.Quiet conn.remoteAddr
  | .remove conn => conn.isClient = true →
      s.Quiet conn.remoteAddr ∧ conn.remoteAddr ∉ clientUrls (s.conns.erase conn)
  | .collect => (∀ conn, conn ∈ s.aliveConns ↔ conn ∈ s.conns) ∧
      ∀ conn ∈ s.conns, conn.remoteAddr ∈ clientUrls s.conns
  | _ => True

/-- What is still to be issued is true, and of a URL about which nothing is the last pending event
is true, or if there is none the set. -/
structure Due : Prop where
  unissued : ∀ event ∈ s.unissued, ∀ url, ∀ said ∈ event.verdict url,
    said = decide (url ∈ clientUrls s.conns)
  pending : ∀ url, s.Quiet url → ∀ said ∈ lastVerdict url s.pending,
    said = decide (url ∈ clientUrls s.conns)
  known : ∀ url, s.Quiet url → lastVerdict url s.pending = none → s.rebuilding = false →
    (url ∈ s.aliveConnUrls ↔ url ∈ clientUrls s.conns)

variable {s s' : AliveState Url}

/-- A connection comes or goes, and its event is to be issued. -/
theorem Due.change (due : s.Due) {event : GlobalCtxEvent Url} {alive : Bool}
    (about : ∀ url, event.verdict url =
      if conn.isClient ∧ conn.remoteAddr = url then some alive else none)
    (quiet : conn.isClient = true → s.Quiet conn.remoteAddr)
    (right : conn.isClient = true → alive = decide (conn.remoteAddr ∈ clientUrls conns))
    (same : ∀ url, ¬ (conn.isClient = true ∧ conn.remoteAddr = url) →
      (url ∈ clientUrls conns ↔ url ∈ clientUrls s.conns)) :
    { s with conns := conns, unissued := event :: s.unissued }.Due := by
  have other {url : Url} (silent : event.verdict url = none) :
      ¬ (conn.isClient = true ∧ conn.remoteAddr = url) := by
    rintro client
    simp [about, client] at silent
  refine ⟨fun other mem url said given => ?_, fun url here said given => ?_,
    fun url here silent built => ?_⟩
  · by_cases client : conn.isClient = true ∧ conn.remoteAddr = url
    · obtain ⟨client, rfl⟩ := client
      obtain rfl | mem := List.mem_cons.mp mem
      · rw [about, if_pos ⟨client, rfl⟩] at given
        cases given
        exact right client
      · cases (quiet client other mem).symm.trans given
    · obtain rfl | mem := List.mem_cons.mp mem
      · rw [about, if_neg client] at given
        cases given
      · exact (due.unissued other mem url said given).trans
          (decide_eq_decide.mpr (same url client).symm)
  · have before := due.pending url (fun other mem => here other (.tail _ mem)) said given
    exact before.trans (decide_eq_decide.mpr (same url (other (here event (.head _)))).symm)
  · have known := due.known url (fun other mem => here other (.tail _ mem)) silent built
    exact known.trans (same url (other (here event (.head _)))).symm

theorem Due.issue (due : s.Due) {event : GlobalCtxEvent Url} (mem : event ∈ s.unissued) :
    { s with unissued := s.unissued.erase event, pending := s.pending ++ [event] }.Due := by
  have before {url : Url} (silent : event.verdict url = none)
      (quiet : ∀ other ∈ s.unissued.erase event, other.verdict url = none) : s.Quiet url := by
    intro other mem
    by_cases same : other = event
    · exact same ▸ silent
    · exact quiet other ((List.mem_erase_of_ne same).mpr mem)
  refine ⟨fun other mem => due.unissued other (List.mem_of_mem_erase mem),
    fun url here said given => ?_,
    fun url here silent built => ?_⟩
  · rw [lastVerdict_concat, Option.mem_def, Option.or_eq_some_iff] at given
    obtain given | ⟨silent, given⟩ := given
    · exact due.unissued event mem url said given
    · exact due.pending url (before silent here) said given
  · rw [lastVerdict_concat, Option.or_eq_none_iff] at silent
    exact due.known url (before silent.1 here) silent.2 built

theorem Due.handle (due : s.Due) {event : GlobalCtxEvent Url} {rest : List (GlobalCtxEvent Url)}
    (pending : s.pending = event :: rest) (built : s.rebuilding = false) :
    { s with pending := rest, aliveConnUrls := handleEvent s.aliveConnUrls event }.Due := by
  have last (url : Url) : lastVerdict url s.pending =
    (lastVerdict url rest).or (event.verdict url) :=
    pending ▸ lastVerdict_cons event rest
  refine ⟨due.unissued, fun url here said given => due.pending url here said ?_,
    fun url here silent _ => ?_⟩
  · rw [last, given, Option.some_or, Option.mem_def]
  · rw [mem_handleEvent]
    change lastVerdict url rest = none at silent
    cases given : event.verdict url with
    | some said =>
      rw [due.pending url here said (by rw [last, silent, given]; rfl)]
      exact decide_eq_true_iff
    | none =>
      have known := due.known url here (by rw [last, silent, given]; rfl) built
      exact decide_eq_true_iff.trans known

theorem Due.step (due : s.Due) {event : AliveStep Url} (told : s.Told event)
    (stepped : s.step event = some s') : s'.Due := by
  cases event with
  | list conn =>
    cases stepped
    exact ⟨due.unissued, due.pending, due.known⟩
  | unlist conn =>
    obtain ⟨-, ⟨⟩⟩ := Option.ite_none_right_eq_some.mp stepped
    exact ⟨due.unissued, due.pending, due.known⟩
  | add conn =>
    cases stepped
    refine due.change (fun _ => rfl) told (fun client => ?_) fun url other => ?_
    · exact (decide_eq_true (mem_clientUrls_cons.mpr (.inl ⟨client, rfl⟩))).symm
    · rw [mem_clientUrls_cons, or_iff_right other]
  | remove conn =>
    obtain ⟨mem, ⟨⟩⟩ := Option.ite_none_right_eq_some.mp stepped
    refine due.change (fun _ => rfl) (fun client => (told client).1) (fun client => ?_)
      fun url other => ?_
    · exact (decide_eq_false (told client).2).symm
    · rw [mem_clientUrls_erase mem, or_iff_right other]
  | issue event =>
    obtain ⟨mem, ⟨⟩⟩ := Option.ite_none_right_eq_some.mp stepped
    exact due.issue mem
  | handle =>
    simp only [AliveState.step] at stepped
    split at stepped
    · cases stepped
      rename_i built pending
      exact due.handle pending built
    · cases stepped
  | resubscribe =>
    obtain ⟨-, ⟨⟩⟩ := Option.ite_none_left_eq_some.mp stepped
    exact ⟨due.unissued, nofun, nofun⟩
  | collect =>
    obtain ⟨-, ⟨⟩⟩ := Option.ite_none_right_eq_some.mp stepped
    refine ⟨due.unissued, due.pending, fun url _ _ _ => ?_⟩
    obtain ⟨listed, clients⟩ := told
    constructor
    · intro mem
      obtain ⟨conn, there, rfl⟩ := List.mem_map.mp (List.mem_toFinset.mp mem)
      exact clients conn ((listed conn).mp there)
    · intro mem
      obtain ⟨conn, live, -, rfl⟩ := mem_clientUrls.mp mem
      exact List.mem_toFinset.mpr (List.mem_map_of_mem ((listed conn).mpr live))

/-- **The URLs are those of the live client connections** when no event is pending: none is still to
be issued or handled, and no rebuild is half done. -/
theorem aliveConnUrls_exact {steps : List (AliveStep Url)} {s : AliveState Url}
    (told : ∀ move ∈ moves step new steps, move.1.Told move.2) (ran : final step new steps = some s)
    (issued : s.unissued = []) (handled : s.pending = []) (built : s.rebuilding = false)
    (url : Url) :
    url ∈ s.aliveConnUrls ↔ ∃ conn ∈ s.conns, conn.isClient = true ∧ conn.remoteAddr = url := by
  have initially : (new : AliveState Url).Due := ⟨nofun, nofun, fun url _ _ _ => Iff.rfl⟩
  have due : s.Due :=
    inv_of_final (fun _ _ _ due told stepped => due.step told stepped) initially told ran
  rw [due.known url (by rw [Quiet, issued]; nofun) (by rw [handled]; rfl) built, mem_clientUrls]

/-- The statements that add a connection and close it, with its events handled. -/
def added (conn : PeerConnInfo Url) : List (AliveStep Url) :=
  [.list conn, .add conn, .issue (.peerConnAdded conn), .handle]

def closed (conn : PeerConnInfo Url) : List (AliveStep Url) :=
  [.remove conn, .unlist conn, .issue (.peerConnRemoved conn), .handle]

/-- A client goes and another comes, then the set is built anew. -/
theorem client_connected :
    let steps : List (AliveStep Nat) := added ⟨true, 7⟩ ++ closed ⟨true, 7⟩ ++ added ⟨true, 8⟩ ++
      [.resubscribe, .collect]
    ∃ s, final step new steps = some s ∧ 7 ∉ s.aliveConnUrls ∧ 8 ∈ s.aliveConnUrls := by
  intro steps
  obtain ⟨s, ran, conns, issued, handled, built⟩ : ∃ s, final step new steps = some s ∧
      s.conns = [⟨true, 8⟩] ∧ s.unissued = [] ∧ s.pending = [] ∧ s.rebuilding = false :=
    ⟨_, rfl, rfl, rfl, rfl, rfl⟩
  have exact := aliveConnUrls_exact (by
    simp [steps, added, closed, moves, step, new, Told, Quiet, clientUrls, urls,
      GlobalCtxEvent.verdict]) ran issued handled built
  refine ⟨s, ran, ?_, ?_⟩ <;> simp [exact, conns]

/-- One of two connections to a URL is removed, and the URL with it. -/
theorem shared_url_lost :
    ∃ s, final step (new : AliveState Nat)
        (added ⟨true, 7⟩ ++ added ⟨true, 7⟩ ++ closed ⟨true, 7⟩) = some s ∧
      s.unissued = [] ∧ s.pending = [] ∧ s.rebuilding = false ∧ ⟨true, 7⟩ ∈ s.conns ∧
      7 ∉ s.aliveConnUrls :=
  ⟨_, rfl, rfl, rfl, rfl, by decide, by decide⟩

end AliveState

end PeerLink.AliveUrls
