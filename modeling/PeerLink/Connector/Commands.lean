import PeerLink.Connector.Places

/-!
# The last command on a connector

A removal is pending from the command until some call of `handle_remove_connector` has taken the
URL out of `connectors`; while the URL is being reconnected it is put back for later. For one URL
there are four situations (`Obeyed`): it is wanted and there, it is gone, its removal waits, or
one thread is working on it. They are kept by every step in which the removal is not overtaken
(`step_obeyed`), and one whole tick leaves no removal pending once everything else is at rest. A
URL that is added while its removal is pending is taken out by the next tick.
-/

namespace PeerLink.ManualConnector

open Schedule

variable {Url : Type} [DecidableEq Url] {url : Url}

/-- In `handle_remove_connector`. -/
def View.inside : View → Bool
  | .visit _ _ | .check _ _ _ | .clear _ | .refill _ => true
  | _ => false

/-- Has met the URL in `removed_conn_urls` and may put it back there. -/
def View.keeps : View → Bool
  | .visit _ later => later
  | .check here _ later => here || later
  | .clear later | .refill later => later
  | _ => false

/-- A removal of the URL has been asked for, and is not yet done with. -/
def Pending (url : Url) (m : Manager Url) : Prop :=
  url ∈ m.shared.removedConnUrls ∨ ∃ thread ∈ m.tasks, (thread.view url).keeps = true

instance (url : Url) (m : Manager Url) : Decidable (Pending url m) :=
  inferInstanceAs (Decidable (_ ∨ _))

/-- While a call of `handle_remove_connector` goes on, no removal of the URL is asked for. While
also a removal of the URL is pending, no second call starts and the URL is not carried from
set to set; and no call starts while it is between the sets. -/
def Allowed (url : Url) (m : Manager Url) : Kind → Prop
  | .requests => ∀ thread ∈ m.tasks, (thread.view url).inside = false
  | .begins => Pending url m →
    ∀ thread ∈ m.tasks, (thread.view url).inside = false ∧ thread.view url ≠ .moving
  | .carries => Pending url m → ∀ thread ∈ m.tasks, (thread.view url).inside = false
  | .quiet | .visits => True

instance (url : Url) (m : Manager Url) : (kind : Kind) → Decidable (Allowed url m kind)
  | .requests => inferInstanceAs (Decidable (∀ thread ∈ m.tasks, _))
  | .begins | .carries => inferInstanceAs (Decidable (_ → ∀ thread ∈ m.tasks, _))
  | .quiet | .visits => .isTrue trivial

/-- While a thread is working on a removal, the others leave the URL alone. -/
theorem Allowed.quiet_or_visits {m : Manager Url} {kind : Kind} (allowed : Allowed url m kind)
    (pending : Pending url m) {worker : Thread Url} (mem : worker ∈ m.tasks)
    (inside : (worker.view url).inside = true) : kind = .quiet ∨ kind = .visits := by
  cases kind with
  | quiet => exact .inl rfl
  | visits => exact .inr rfl
  | requests => simp [allowed worker mem] at inside
  | begins => simp [(allowed pending worker mem).1] at inside
  | carries => simp [allowed pending worker mem] at inside

/-- A removal of the URL is not overtaken, and the URL is only added when no removal is pending
and it is not being reconnected. -/
def Orderly (url : Url) (m : Manager Url) : Event Url → Prop
  | .add other => other = url → url ∉ m.shared.reconnecting ∧ ¬ Pending url m ∧
    ∀ thread ∈ m.tasks, thread.view url ≠ .moving
  | .turn i take => ∀ thread ∈ m.tasks[i]?, Allowed url m (thread.kind take url)
  | _ => True

instance (url : Url) (m : Manager Url) : (event : Event Url) → Decidable (Orderly url m event)
  | .add _ => inferInstanceAs (Decidable (_ → _ ∧ _ ∧ ∀ thread ∈ m.tasks, _))
  | .turn i _ => inferInstanceAs (Decidable (∀ thread ∈ m.tasks[i]?, _))
  | .call _ | .alive _ => .isTrue trivial

/-! ## The four situations -/

/-- The thread will take the URL out or put it back. -/
def Covers (s : Sight) : View → Prop
  | .visit due later => s.removed = true ∧ (due = true ∨ later = true)
  | .check here due later =>
    s.removed = true ∧ (here = true ∧ s.reconnecting = true ∨ due = true ∨ later = true)
  | .clear later => later = true
  | .refill later => s.removed = true ∨ later = true
  | _ => False

/-- What holds of every thread, by its place and by what it has to do with the URL. -/
abbrev Every (url : Url) (m : Manager Url) (P : Nat → View → Prop) : Prop :=
  ∀ (j : Nat) thread, m.tasks[j]? = some thread → P j (thread.view url)

/-- The URL is in a set, or this thread carries it. -/
abbrev Shown (s : Sight) (v : View) : Prop :=
  s.connectors = true ∨ s.reconnecting = true ∨ v = .moving

def Present (url : Url) (m : Manager Url) : Prop :=
  (m.shared.sight url).connectors = true ∨ (m.shared.sight url).reconnecting = true ∨
    ∃ (i : Nat) (thread : Thread Url), m.tasks[i]? = some thread ∧ thread.view url = .moving

def Absent (url : Url) (m : Manager Url) : Prop :=
  (m.shared.sight url).connectors = false ∧ (m.shared.sight url).reconnecting = false ∧
    ∀ (i : Nat) thread, m.tasks[i]? = some thread → thread.view url ≠ .moving

inductive Obeyed (url : Url) (m : Manager Url) : Prop
  | kept (wanted : (m.shared.sight url).wanted = true)
      (unmarked : (m.shared.sight url).removed = false)
      (free : ∀ (i : Nat) thread, m.tasks[i]? = some thread →
        (thread.view url).keeps = false)
      (present : Present url m)
  | gone (unwanted : (m.shared.sight url).wanted = false) (absent : Absent url m)
  | waiting (unwanted : (m.shared.sight url).wanted = false)
      (marked : (m.shared.sight url).removed = true)
      (free : ∀ (i : Nat) thread, m.tasks[i]? = some thread →
        (thread.view url).inside = false)
  | working (unwanted : (m.shared.sight url).wanted = false) (i : Nat) (thread : Thread Url)
      (here : m.tasks[i]? = some thread) (covers : Covers (m.shared.sight url) (thread.view url))
      (alone : ∀ (j : Nat) other, m.tasks[j]? = some other → j ≠ i →
        (other.view url).inside = false)
      (settled : ∀ (j : Nat) other, m.tasks[j]? = some other →
        other.view url ≠ .moving)

variable {k : Kind} {s s' : Sight} {v v' : View} {new : Option View}

section
variable (move : Move k s v s' v' new)
include move

theorem Move.unwanted (unwanted : s.wanted = false) : s'.wanted = false := by
  cases move <;> simp_all

/-- A started task has nothing to do with removals. -/
theorem Move.started : ∀ n ∈ new, n.inside = false ∧ n.keeps = false ∧ n ≠ .moving := by
  cases move <;> simp_all [View.inside, View.keeps]

theorem Move.kept (unmarked : s.removed = false) (free : v.keeps = false) :
    k = .requests ∧ s'.removed = true ∧ s'.wanted = false ∧ v'.inside = false ∨
    s'.wanted = s.wanted ∧ s'.removed = false ∧ v'.keeps = false ∧
      (Shown s v → Shown s' v') := by
  cases move <;> simp_all [View.keeps, View.inside, Shown]

theorem Move.gone (stands : Stands s v) (out : s.connectors = false) (idle : s.reconnecting = false)
    (settled : v ≠ .moving) : s'.connectors = false ∧ s'.reconnecting = false ∧ v' ≠ .moving := by
  cases move <;> simp_all [Stands]

theorem Move.waiting (marked : s.removed = true) (free : v.inside = false) :
    k = .begins ∧ s' = s ∧ v' = .visit true false ∨ v'.inside = false ∧ s'.removed = true := by
  cases move <;> simp_all [View.inside]

theorem Move.working (exclusive : Exclusive s) (covers : Covers s v) :
    v' ≠ .moving ∧ (Covers s' v' ∨ s'.connectors = false ∧ s'.reconnecting = false ∨
      v'.inside = false ∧ s'.removed = true) := by
  cases move <;> simp_all [Exclusive, Covers, View.inside] <;> grind

/-- A turn that is neither of the kinds that a working thread excludes. -/
theorem Move.aside (plain : k = .quiet ∨ k = .visits) (free : v.inside = false) :
    s' = s ∧ v'.inside = false ∧ (v' = .moving → v = .moving) := by
  cases move <;> simp_all [View.inside]

end

theorem Covers.inside (covers : Covers s v) : v.inside = true := by
  cases v <;> first | rfl | exact covers.elim

theorem Covers.pending (covers : Covers s v) : s.removed = true ∨ v.keeps = true := by
  cases v <;> simp_all [Covers, View.keeps]

/-! ## A turn -/

/-- Thread `i` is `thread'` after the turn, and a task that it has started has nothing to do
with removals. -/
structure Turned (url : Url) (m : Manager Url) (i : Nat) (thread' : Thread Url)
    (m' : Manager Url) : Prop where
  own : m'.tasks[i]? = some thread'
  old : ∀ (j : Nat) t, j ≠ i → m.tasks[j]? = some t → m'.tasks[j]? = some t
  each : ∀ (j : Nat) t, m'.tasks[j]? = some t → j ≠ i →
    m.tasks[j]? = some t ∨
      (t.view url).inside = false ∧ (t.view url).keeps = false ∧ t.view url ≠ .moving

section
variable {m m' : Manager Url} {event : Event Url} {i : Nat} {take : Option Url}

variable {thread' thread : Thread Url}

theorem Manager.Step.turned (url : Url) (step : m.Step (.turn i take) m') :
    m' = m ∨ ∃ thread thread' new, m.tasks[i]? = some thread ∧
      thread.operate m.shared take = some (m'.shared, thread', new) ∧
        Turned url m i thread' m' := by
  cases step with
  | absent _ _ gone => exact .inl rfl
  | turn _ _ thread thread' data here operates =>
    refine .inr ⟨thread, thread', none, here, operates, Pool.turn_self here, ?_, ?_⟩
    · intro j t ne found
      rw [Pool.turn_other (Ne.symm ne), found]
    · intro j t found ne
      rw [Pool.turn_other (Ne.symm ne)] at found
      exact .inl found
  | fork _ _ thread thread' task data here operates =>
    refine .inr ⟨thread, thread', some task, here, operates,
      Pool.spawn_other (Pool.turn_self here), ?_, ?_⟩
    · intro j t ne found
      exact Pool.spawn_other (by rw [Pool.turn_other (Ne.symm ne), found])
    · intro j t found ne
      obtain ⟨-, rfl⟩ | old := Pool.getElem?_spawn found
      · exact .inr ((operate_move url operates).started _ rfl)
      · rw [Pool.turn_other (Ne.symm ne)] at old
        exact .inl old

section
variable (turned : Turned url m i thread' m')
include turned

/-- What holds of every other thread, of a started task and of the thread itself. -/
theorem Turned.all {P : Nat → View → Prop} (own : P i (thread'.view url))
    (old : Every url m fun j v => j ≠ i → P j v)
    (fresh : ∀ j v, View.inside v = false → v.keeps = false → v ≠ .moving → P j v) :
    Every url m' P := by
  intro j t found
  by_cases same : j = i
  · subst same
    rw [turned.own] at found
    exact Option.some.inj found ▸ own
  · obtain before | ⟨out, drops, settled⟩ := turned.each j t found same
    · exact old j t before same
    · exact fresh j _ out drops settled

theorem Turned.settled (own : thread'.view url ≠ .moving)
    (old : Every url m fun j v => j ≠ i → v ≠ .moving) : Every url m' fun _ v => v ≠ .moving :=
  turned.all own old fun _ _ _ _ settled => settled

theorem Turned.outside (own : (thread'.view url).inside = false)
    (old : Every url m fun j v => j ≠ i → v.inside = false) :
    Every url m' fun _ v => v.inside = false :=
  turned.all own old fun _ _ out _ _ => out

/-- The same of the other threads alone. -/
theorem Turned.others_outside (old : Every url m fun j v => j ≠ i → v.inside = false) :
    Every url m' fun j v => j ≠ i → v.inside = false :=
  turned.all (absurd rfl) (fun j t found _ => old j t found) fun _ _ out _ _ _ => out

theorem Turned.present (here : m.tasks[i]? = some thread)
    (still : Shown (m.shared.sight url) (thread.view url) →
      Shown (m'.shared.sight url) (thread'.view url))
    (present : Present url m) : Present url m' := by
  have own (there : Shown (m'.shared.sight url) (thread'.view url)) : Present url m' :=
    there.imp_right fun there => there.imp_right fun moving => ⟨i, thread', turned.own, moving⟩
  obtain inC | inR | ⟨j, t, found, moving⟩ := present
  · exact own (still (.inl inC))
  · exact own (still (.inr (.inl inR)))
  · by_cases same : j = i
    · subst same
      rw [here] at found
      exact own (still (.inr (.inr (Option.some.inj found ▸ moving))))
    · exact .inr (.inr ⟨j, t, turned.old j t same found, moving⟩)

end

theorem Obeyed.turn {new : Option (Thread Url)}
    (obeyed : Obeyed url m) (placed : Placed url m) (here : m.tasks[i]? = some thread)
    (operates : thread.operate m.shared take = some (m'.shared, thread', new))
    (turned : Turned url m i thread' m') (allowed : Allowed url m (thread.kind take url)) :
    Obeyed url m' := by
  have move := operate_move url operates
  have mem {j : Nat} {t : Thread Url} (found : m.tasks[j]? = some t) : t ∈ m.tasks :=
    List.mem_of_getElem? found
  cases obeyed with
  | kept wanted unmarked free present =>
    obtain ⟨asked, marked, unwanted, out⟩ | ⟨same, unmarked', drops, still⟩ :=
      move.kept unmarked (free i thread here)
    · rw [asked] at allowed
      exact .waiting unwanted marked
        (turned.outside out fun j t found _ => allowed t (mem found))
    · refine .kept (same.trans wanted) unmarked' ?_ (turned.present here still present)
      exact turned.all (P := fun _ v => v.keeps = false) drops (fun j t found _ => free j t found)
        fun _ _ _ drops _ => drops
  | gone unwanted absent =>
    obtain ⟨out, idle, settled⟩ := absent
    obtain ⟨out', idle', settled'⟩ :=
      move.gone (placed.each i thread here) out idle (settled i thread here)
    exact .gone (move.unwanted unwanted)
      ⟨out', idle', turned.settled settled' fun j t found _ => settled j t found⟩
  | waiting unwanted marked free =>
    obtain ⟨begins, unseen, view⟩ | ⟨out, marked'⟩ := move.waiting marked (free i thread here)
    · rw [begins] at allowed
      have others := allowed (.inl (by simpa using marked))
      refine .working (move.unwanted unwanted) i thread' turned.own ?_
        (turned.others_outside fun j t found _ => free j t found) ?_
      · rw [unseen, view]
        exact ⟨marked, .inl rfl⟩
      · refine turned.settled ?_ fun j t found _ => (others t (mem found)).2
        rw [view]
        exact View.noConfusion
    · exact .waiting (move.unwanted unwanted) marked'
        (turned.outside out fun j t found _ => free j t found)
  | working unwanted i₀ worker found covers alone settled =>
    by_cases same : i = i₀
    · subst same
      obtain rfl := Option.some.inj (found.symm.trans here)
      obtain ⟨settled', still | ⟨out, idle⟩ | ⟨out, marked⟩⟩ := move.working placed.shared covers
      · exact .working (move.unwanted unwanted) i thread' turned.own still
          (turned.others_outside alone)
          (turned.settled settled' fun j t found _ => settled j t found)
      · exact .gone (move.unwanted unwanted)
          ⟨out, idle, turned.settled settled' fun j t found _ => settled j t found⟩
      · exact .waiting (move.unwanted unwanted) marked (turned.outside out alone)
    · have pending : Pending url m :=
        covers.pending.imp (by simp) fun keeps => ⟨worker, mem found, keeps⟩
      have plain := allowed.quiet_or_visits pending (mem found) covers.inside
      obtain ⟨unseen, out, still⟩ := move.aside plain (alone i thread here same)
      refine .working (move.unwanted unwanted) i₀ worker
        (turned.old i₀ worker (Ne.symm same) found) (by rw [unseen]; exact covers) ?_ ?_
      · exact turned.all (P := fun j v => j ≠ i₀ → v.inside = false) (fun _ => out)
          (fun j t found _ => alone j t found) fun _ _ out _ _ _ => out
      · exact turned.settled (fun moving => settled i thread here (still moving))
          fun j t found _ => settled j t found

/-! ## Every step -/

/-- The URL sees nothing of the step but threads that have nothing to do with removals. -/
theorem Obeyed.grow (obeyed : Obeyed url m) (unseen : m'.shared.sight url = m.shared.sight url)
    (old : ∀ (j : Nat) t, m.tasks[j]? = some t → m'.tasks[j]? = some t)
    (each : ∀ (j : Nat) t, m'.tasks[j]? = some t →
      m.tasks[j]? = some t ∨ t.view url = .outside false) : Obeyed url m' := by
  have all {P : Nat → View → Prop} (before : Every url m P) (fresh : ∀ j, P j (.outside false)) :
      Every url m' P := by
    intro j t found
    obtain found | view := each j t found
    · exact before j t found
    · rw [view]
      exact fresh j
  have settled (before : Every url m fun _ v => v ≠ .moving) :
      Every url m' fun _ v => v ≠ .moving :=
    all before fun _ => nofun
  cases obeyed with
  | kept wanted unmarked free present =>
    refine .kept (unseen ▸ wanted) (unseen ▸ unmarked) ?_ ?_
    · exact all (P := fun _ v => v.keeps = false) free fun _ => rfl
    · unfold Present
      rw [unseen]
      refine present.imp_right fun there => there.imp_right ?_
      rintro ⟨j, t, found, moving⟩
      exact ⟨j, t, old j t found, moving⟩
  | gone unwanted absent =>
    obtain ⟨out, idle, before⟩ := absent
    exact .gone (unseen ▸ unwanted) ⟨unseen ▸ out, unseen ▸ idle, settled before⟩
  | waiting unwanted marked free =>
    refine .waiting (unseen ▸ unwanted) (unseen ▸ marked) ?_
    exact all (P := fun _ v => v.inside = false) free fun _ => rfl
  | working unwanted i₀ worker found covers alone before =>
    refine .working (unseen ▸ unwanted) i₀ worker (old i₀ worker found) (unseen ▸ covers) ?_
      (settled before)
    exact all (P := fun j v => j ≠ i₀ → v.inside = false) alone fun _ _ => rfl

theorem Orderly.added (orderly : Orderly url m event) : AddedApart url m event := by
  cases event with
  | add other =>
    intro same
    obtain ⟨free, -, settled⟩ := orderly same
    exact ⟨free, settled⟩
  | _ => trivial

theorem step_obeyed (obeyed : Obeyed url m) (placed : Placed url m)
    (orderly : Orderly url m event) (stepped : m.step event = some m') : Obeyed url m' := by
  cases event with
  | turn i take =>
    obtain rfl | ⟨thread, thread', new, here, operates, turned⟩ :=
      (Manager.step_cases stepped).turned url
    · exact obeyed
    · exact obeyed.turn placed here operates turned (orderly thread here)
  | add other =>
    cases stepped
    by_cases same : other = url
    · obtain ⟨-, settledDown, -⟩ := orderly same
      obtain ⟨unmarked, drops⟩ := not_or.mp settledDown
      have seen := sight_add m.shared other url
      rw [if_pos same] at seen
      refine .kept (congrArg Sight.wanted seen) ?_ ?_ (.inl (congrArg Sight.connectors seen))
      · refine (congrArg Sight.removed seen).trans ?_
        simpa using unmarked
      · intro j t found
        have none_keeps := not_and.mp (not_exists.mp drops t) (List.mem_of_getElem? found)
        simpa using none_keeps
    · have seen := sight_add m.shared other url
      rw [if_neg same] at seen
      exact obeyed.grow seen (fun _ _ found => found) fun _ _ found => .inl found
  | call target =>
    cases stepped
    refine obeyed.grow rfl (fun j t found => Pool.spawn_other found) fun j t found => ?_
    obtain ⟨-, rfl⟩ | old := Pool.getElem?_spawn found
    · exact .inr rfl
    · exact .inl old
  | alive urls =>
    cases stepped
    exact obeyed.grow rfl (fun _ _ found => found) fun _ _ found => .inl found

theorem new_obeyed : Obeyed url (Manager.new : Manager Url) := by
  refine .gone rfl ⟨by simp [Manager.new], by simp [Manager.new], ?_⟩
  intro i thread found
  cases i with
  | zero =>
    cases found
    simp [Thread.view]
  | succ i => cases found

/-- A URL in `reconnecting` has a task. -/
def Owned (url : Url) (m : Manager Url) : Prop :=
  (m.shared.sight url).reconnecting = true →
    ∃ (i : Nat) (thread : Thread Url), m.tasks[i]? = some thread ∧ thread.view url = .running

theorem Move.owned (move : Move k s v s' v' new) (after : s'.reconnecting = true) :
    s.reconnecting = true ∧ (v = .running → v' = .running) ∨ new = some .running := by
  cases move <;> simp_all

theorem step_owned (owned : Owned url m) (stepped : m.step event = some m') : Owned url m' := by
  have keeps {i data} {thread thread' : Thread Url} (here : m.tasks[i]? = some thread)
      (still : thread.view url = .running → thread'.view url = .running)
      (before : (m.shared.sight url).reconnecting = true) :
      ∃ (j : Nat) (t : Thread Url), (m.turn i data thread').tasks[j]? = some t ∧
        t.view url = .running := by
    obtain ⟨j, t, found, running⟩ := owned before
    by_cases same : j = i
    · subst same
      obtain rfl := Option.some.inj (here.symm.trans found)
      exact ⟨j, thread', Pool.turn_self here, still running⟩
    · exact ⟨j, t, by rw [Pool.turn_other (Ne.symm same), found], running⟩
  cases Manager.step_cases stepped with
  | absent i take gone => exact owned
  | turn i take thread thread' data here operates =>
    intro after
    obtain ⟨before, still⟩ | started := (operate_move url operates).owned after
    · exact keeps here still before
    · cases started
  | fork i take thread thread' task data here operates =>
    intro after
    obtain ⟨before, still⟩ | started := (operate_move url operates).owned after
    · obtain ⟨j, t, found, running⟩ := keeps here still before
      exact ⟨j, t, Pool.spawn_other found, running⟩
    · exact ⟨_, task, Pool.getElem?_spawn_self, Option.some.inj started⟩
  | add other =>
    intro after
    have before : (m.shared.sight url).reconnecting = true := after
    exact owned before
  | call target =>
    intro after
    obtain ⟨j, t, found, running⟩ := owned after
    exact ⟨j, t, Pool.spawn_other found, running⟩
  | alive urls => exact owned

/-! ## A tick when all else is at rest -/

/-- Not in the middle of anything. -/
def Thread.atRest : Thread Url → Bool
  | .tick .idle | .call _ (.ended _) | .task _ .ended => true
  | _ => false

/-- The tick goes on, and connection events come in. -/
def Event.ofTick : Event Url → Bool
  | .turn 0 _ | .alive _ => true
  | _ => false

/-- The tick leaves no removal pending. -/
def Purged (s : Sight) : View → Prop
  | .visit _ later => later = false ∧ ¬ (s.removed = true ∧ s.reconnecting = true)
  | .check here _ later => later = false ∧ ¬ (here = true ∧ s.reconnecting = true) ∧
    ¬ (s.removed = true ∧ s.reconnecting = true)
  | .clear later => later = false
  | .refill later => later = false ∧ s.removed = false
  | .outside _ | .moving | .running => s.removed = false

theorem Move.purged
    (move : Move k s v s' v' new) (uncommanded : k ≠ .requests) (purged : Purged s v) :
    Purged s' v' := by
  cases move <;> simp_all [Purged]

structure Ticking (url : Url) (m : Manager Url) : Prop where
  tick : ∃ phase, m.tasks[0]? = some (.tick phase) ∧
    Purged (m.shared.sight url) ((Thread.tick phase).view url)
  others : ∀ (j : Nat) t, m.tasks[j]? = some t → j ≠ 0 →
    (t.view url).inside = false ∧ t.view url ≠ .moving

theorem view_of_rest (rest : thread.atRest = true) :
    thread.view url = .outside false := by
  unfold Thread.atRest at rest
  split at rest <;> first | rfl | cases rest

/-- The tick asks for nothing, and only an idle one begins. -/
theorem tick_kind (phase : TickPhase Url) (take : Option Url) (url : Url) :
    (Thread.tick phase).kind take url ≠ .requests ∧
      ((Thread.tick phase).kind take url = .begins → phase = .idle) := by
  cases phase with
  | idle => simp [Thread.kind]
  | collect phase =>
    simp only [Thread.kind]
    obtain quiet | ⟨visits, -⟩ := phase.kind_cases take url
    · simp [quiet]
    · simp [visits]
  | _ =>
    simp only [Thread.kind]
    split <;> simp

/-- In `handle_remove_connector` nothing is carried and nothing begins. -/
theorem kind_of_inside (take : Option Url) (inside : (thread.view url).inside = true) :
    thread.kind take url = .quiet ∨ thread.kind take url = .visits := by
  cases thread with
  | tick phase =>
    cases phase with
    | collect phase => exact (phase.kind_cases take url).imp_right And.left
    | hold other dead =>
      simp only [Thread.view] at inside
      split at inside <;> cases inside
    | _ => cases inside
  | call target phase =>
    cases phase with
    | collect connUrls phase => exact (phase.kind_cases take url).imp_right And.left
    | _ => cases inside
  | task other phase =>
    cases phase with
    | ended => cases inside
    | _ =>
      simp only [Thread.view] at inside
      split at inside <;> cases inside

theorem Ticking.orderly (ticking : Ticking url m) (ofTick : event.ofTick = true) :
    Orderly url m event := by
  obtain ⟨phase, here, -⟩ := ticking.tick
  match event, ofTick with
  | .turn 0 take, _ =>
    rw [Orderly, here]
    rintro thread ⟨⟩
    -- what a thread must not be holds of the tick if it holds of its phase
    have each (t : Thread Url) (mem : t ∈ m.tasks) :
        t = .tick phase ∨ (t.view url).inside = false ∧ t.view url ≠ .moving := by
      obtain ⟨j, found⟩ := List.mem_iff_getElem?.mp mem
      by_cases first : j = 0
      · subst first
        exact .inl (Option.some.inj (found.symm.trans here))
      · exact .inr (ticking.others j t found first)
    cases kind : (Thread.tick phase).kind take url with
    | quiet | visits => trivial
    | requests => exact absurd kind (tick_kind phase take url).1
    | carries =>
      intro _ t mem
      obtain rfl | ⟨out, -⟩ := each t mem
      · by_contra inside
        have still := kind_of_inside take (Bool.eq_true_of_not_eq_false inside)
        simp [kind] at still
      · exact out
    | begins =>
      intro _ t mem
      obtain rfl | other := each t mem
      · obtain rfl := (tick_kind phase take url).2 kind
        exact ⟨rfl, by simp [Thread.view]⟩
      · exact other
  | .alive urls, _ => trivial

theorem Ticking.step (ticking : Ticking url m) (ofTick : event.ofTick = true)
    (stepped : m.step event = some m') : Ticking url m' := by
  obtain ⟨phase, here, purged⟩ := ticking.tick
  match event, ofTick with
  | .turn 0 take, _ =>
    obtain rfl | ⟨thread, thread', new, here', operates, turned⟩ :=
      (Manager.step_cases stepped).turned url
    · exact ticking
    · obtain rfl := Option.some.inj (here.symm.trans here')
      obtain ⟨tick, -⟩ := operate_isTick operates
      cases thread' with
      | tick phase' =>
        refine ⟨⟨phase', turned.own, ?_⟩, ?_⟩
        · exact (operate_move url operates).purged (tick_kind phase take url).1 purged
        · intro j t found ne
          obtain old | ⟨out, -, settled⟩ := turned.each j t found ne
          · exact ticking.others j t old ne
          · exact ⟨out, settled⟩
      | _ => cases tick
  | .alive urls, _ =>
    cases stepped
    exact ⟨⟨phase, here, purged⟩, ticking.others⟩

end

theorem wanted_iff (data : ConnectorManagerData Url) (url : Url) :
    (data.sight url).wanted = true ↔ data.lastCommand url = some (.add url) := by
  rw [ConnectorManagerData.sight_wanted]
  cases last : data.lastCommand url with
  | none => simp
  | some command =>
    have same : command.url = url := by simpa using List.find?_some last
    subst same
    cases command <;> simp [Command.isAdd, Command.url]

/-- What the sets say when the tick is over. -/
theorem Obeyed.read {m : Manager Url} (obeyed : Obeyed url m) (ticking : Ticking url m)
    (finished : m.tasks[0]? = some (.tick .idle)) :
    url ∈ m.shared.connectors ∨ url ∈ m.shared.reconnecting ↔
      m.shared.lastCommand url = some (.add url) := by
  have unmarked : (m.shared.sight url).removed = false := by
    obtain ⟨phase, here, purged⟩ := ticking.tick
    cases here.symm.trans finished
    exact purged
  have aside (j : Nat) (t : Thread Url) (found : m.tasks[j]? = some t) :
      (t.view url).inside = false ∧ t.view url ≠ .moving := by
    by_cases first : j = 0
    · subst first
      cases found.symm.trans finished
      exact ⟨rfl, by simp [Thread.view]⟩
    · exact ticking.others j t found first
  rw [← wanted_iff]
  cases obeyed with
  | kept wanted _ _ present =>
    refine iff_of_true ?_ wanted
    obtain inC | inR | ⟨j, t, found, moving⟩ := present
    · exact .inl (by simpa using inC)
    · exact .inr (by simpa using inR)
    · exact absurd moving (aside j t found).2
  | gone unwanted absent =>
    refine iff_of_false ?_ (by simp only [unwanted, Bool.false_eq_true, not_false_eq_true])
    rintro (inC | inR)
    · simpa [inC] using absent.1
    · simpa [inR] using absent.2.1
  | waiting _ marked _ => exact absurd (unmarked.symm.trans marked) Bool.false_ne_true
  | working _ i worker found covers _ _ =>
    have inside := covers.inside
    simp [(aside i worker found).1] at inside

/-- **The last command wins.** In an orderly run, once nothing is in progress and the tick has
run once more, the URL is there just if it was added last. -/
theorem last_command_wins (url : Url) (events ticks : List (Event Url)) (m m' : Manager Url)
    (orderly : ∀ move ∈ moves Manager.step Manager.new events, Orderly url move.1 move.2)
    (ran : final Manager.step Manager.new events = some m)
    (quiet : ∀ thread ∈ m.tasks, thread.atRest = true)
    (idle : m.tasks[0]? = some (.tick .idle))
    (ofTick : ∀ event ∈ ticks, event.ofTick = true)
    (ticked : final Manager.step m (.turn 0 none :: ticks) = some m')
    (finished : m'.tasks[0]? = some (.tick .idle)) :
    url ∈ m'.shared.connectors ∨ url ∈ m'.shared.reconnecting ↔
      m'.shared.lastCommand url = some (.add url) := by
  have keeps (s : Manager Url) (event : Event Url) (s' : Manager Url)
      (inv : Placed url s ∧ Obeyed url s ∧ Owned url s) (orderly : Orderly url s event)
      (stepped : s.step event = some s') : Placed url s' ∧ Obeyed url s' ∧ Owned url s' :=
    ⟨step_placed inv.1 orderly.added stepped, step_obeyed inv.2.1 inv.1 orderly stepped,
      step_owned inv.2.2 stepped⟩
  have initially : Owned url (Manager.new : Manager Url) := by simp [Owned, Manager.new]
  have reached := inv_of_final keeps ⟨new_placed, new_obeyed, initially⟩ orderly ran
  have resting (j : Nat) (t : Thread Url) (found : m.tasks[j]? = some t) :
      t.view url = .outside false := view_of_rest (quiet t (List.mem_of_getElem? found))
  have free : (m.shared.sight url).reconnecting = false := by
    by_contra inside
    obtain ⟨j, t, found, running⟩ := reached.2.2 (by simpa using inside)
    rw [resting j t found] at running
    cases running
  obtain ⟨m₁, stepped, rest⟩ := Option.bind_eq_some_iff.mp ticked
  have begins : Orderly url m (.turn 0 none) := by
    rw [Orderly, idle]
    rintro thread ⟨⟩ - t mem
    obtain ⟨j, found⟩ := List.mem_iff_getElem?.mp mem
    rw [resting j t found]
    exact ⟨rfl, by simp⟩
  have started := keeps m _ m₁ reached begins stepped
  have ticking : Ticking url m₁ := by
    rw [Manager.step, idle] at stepped
    cases stepped
    refine ⟨⟨_, Pool.turn_self idle, rfl, ?_⟩, ?_⟩
    · rintro ⟨-, inside⟩
      exact Bool.false_ne_true (free.symm.trans inside)
    · intro j t found ne
      rw [Pool.turn_other (Ne.symm ne)] at found
      rw [resting j t found]
      exact ⟨rfl, by simp⟩
  have ticks_keep (s : Manager Url) (event : Event Url) (s' : Manager Url)
      (inv : (Placed url s ∧ Obeyed url s ∧ Owned url s) ∧ Ticking url s)
      (ofTick : event.ofTick = true) (stepped : s.step event = some s') :
      (Placed url s' ∧ Obeyed url s' ∧ Owned url s') ∧ Ticking url s' :=
    ⟨keeps s event s' inv.1 (inv.2.orderly ofTick) stepped, inv.2.step ofTick stepped⟩
  obtain ⟨⟨-, obeyed, -⟩, ticking'⟩ := inv_of_final ticks_keep ⟨started, ticking⟩
    (fun move mem => ofTick move.2 (event_of_moves mem)) rest
  exact obeyed.read ticking' finished

/-- `remove_connector(url)`, as thread `i`, of the only URL there is. -/
def removeAlone (i url : Nat) : List (Event Nat) :=
  [.call (some url), .turn i (some url), .turn i none, .turn i none, .turn i none, .turn i none,
    .turn i (some url), .turn i none, .turn i (some url), .turn i none, .turn i none, .turn i none,
    .turn i none]

/-- The rest of a tick that takes out the only URL there is. -/
def takeOut (url : Nat) : List (Event Nat) :=
  [.turn 0 (some url), .turn 0 none, .turn 0 none, .turn 0 none, .turn 0 none, .turn 0 none,
    .turn 0 none]

/-- The rest of a tick that moves the only URL there is to `reconnecting`. -/
def takeOver (url : Nat) : List (Event Nat) :=
  [.turn 0 none, .turn 0 none, .turn 0 none, .turn 0 (some url), .turn 0 none, .turn 0 (some url),
    .turn 0 none, .turn 0 none, .turn 0 (some url), .turn 0 none, .turn 0 none]

/-- Added, removed, taken out by a tick, and added again: the next tick finds it there. -/
theorem removed_and_added_wins :
    let events := [[.add 1], removeAlone 1 1, [.turn 0 none], takeOut 1, [.add 1]].flatten
    ∃ m m' : Manager Nat, final Manager.step Manager.new events = some m ∧
      final Manager.step m (.turn 0 none :: takeOver 1) = some m' ∧
      m'.shared.lastCommand 1 = some (.add 1) ∧
      (1 ∈ m'.shared.connectors ∨ 1 ∈ m'.shared.reconnecting) := by
  intro events
  have orderly : ∀ move ∈ moves Manager.step Manager.new events, Orderly 1 move.1 move.2 := by
    decide +kernel
  obtain ⟨m, ran, quiet, idle, m', ticked, finished, last⟩ :
      ∃ m ∈ final Manager.step (Manager.new : Manager Nat) events,
        (∀ thread ∈ m.tasks, thread.atRest = true) ∧ m.tasks[0]? = some (.tick .idle) ∧
        ∃ m' ∈ final Manager.step m (.turn 0 none :: takeOver 1),
          m'.tasks[0]? = some (.tick .idle) ∧ m'.shared.lastCommand 1 = some (.add 1) := by
    decide +kernel
  exact ⟨m, m', ran, ticked, last, (last_command_wins 1 events (takeOver 1) m m' orderly
    ran quiet idle
    (by decide) ticked finished).mpr last⟩

/-- Added, removed and added again before the next tick: the tick takes it out. -/
theorem added_after_removal_lost :
    let events := [[.add 1], removeAlone 1 1, [.add 1]].flatten
    ∃ m m' : Manager Nat, final Manager.step Manager.new events = some m ∧
      (∀ thread ∈ m.tasks, thread.atRest = true) ∧ m.tasks[0]? = some (.tick .idle) ∧
      final Manager.step m (.turn 0 none :: takeOut 1) = some m' ∧
      m'.tasks[0]? = some (.tick .idle) ∧ m'.shared.lastCommand 1 = some (.add 1) ∧
      ¬ (1 ∈ m'.shared.connectors ∨ 1 ∈ m'.shared.reconnecting) := by
  simp only [exists_and_left, ← Option.mem_def]
  decide +kernel

end PeerLink.ManualConnector
