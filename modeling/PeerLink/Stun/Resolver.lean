/-!
# Resolving STUN servers

`HostResolverIter::next` gives the addresses of a list of hosts. A host that starts with `txt:`
stands for the hosts that a TXT record names, which take its place at the head of the list and may
be of that kind again.
-/

namespace PeerLink.Stun

variable {Addr : Type}

abbrev Host := List Char

/-- The answers of the DNS, `none` for an error. -/
structure Dns (Addr : Type) where
  resolveTxtRecord : Host → Option Host
  lookupHost : Host → Option (List Addr)

structure HostResolverIter (Addr : Type) where
  hostnames : List Host
  ips : List Addr

variable (dns : Dns Addr) (host : Host)

def withPort : Host :=
  if ':' ∈ host then host else host ++ ":3478".toList

/-- `trim_start_matches("txt:")`. -/
def trimTxt : Host → Host
  | 't' :: 'x' :: 't' :: ':' :: host => trimTxt host
  | host => host

def isTxt : Bool := "txt:".toList.isPrefixOf (withPort host)

/-- The hosts that come in the place of one of the kind `txt:`. -/
def txtHosts : List Host :=
  ((dns.resolveTxtRecord (trimTxt (withPort host))).map (·.splitOn ' ')).getD []

/-- One call of `next` up to its result or its next recursive call, where `choose` filters the
addresses by their family and draws some of them. `none` is the end, otherwise there is an address
or the recursive call, and the iterator for it. -/
def next (choose : List Addr → List Addr) (iter : HostResolverIter Addr) :
    Option (Option Addr × HostResolverIter Addr) :=
  match iter.ips, iter.hostnames with
  | ip :: ips, hostnames => some (some ip, ⟨hostnames, ips⟩)
  | [], [] => none
  | [], host :: hostnames =>
    if isTxt host then
      some (none, ⟨txtHosts dns host ++ hostnames, []⟩)
    else
      match (dns.lookupHost (withPort host)).map choose with
      | some (ip :: ips) => some (some ip, ⟨hostnames, ips⟩)
      | _ => some (none, ⟨hostnames, []⟩)

/-- `iter` is followed by `iter'`. -/
def Follows (iter' iter : HostResolverIter Addr) : Prop :=
  ∃ choose result, next dns choose iter = some (result, iter')

/-- `host` is resolved by `other` among others. -/
def Names (other host : Host) : Prop :=
  isTxt host = true ∧ other ∈ txtHosts dns host

section
variable {dns : Dns Addr} {hostnames : List Host} {host : Host}

theorem follows_txt (txt : isTxt host = true) :
    Follows dns ⟨txtHosts dns host ++ hostnames, []⟩ ⟨host :: hostnames, []⟩ :=
  ⟨id, none, by simp [next, txt]⟩

/-- What follows a host is what it names, or addresses of it. -/
theorem of_follows_host {iter : HostResolverIter Addr}
    (follows : Follows dns iter ⟨host :: hostnames, []⟩) :
    isTxt host = true ∧ iter = ⟨txtHosts dns host ++ hostnames, []⟩ ∨
      isTxt host = false ∧ iter.hostnames = hostnames := by
  obtain ⟨choose, result, stepped⟩ := follows
  unfold next at stepped
  dsimp only at stepped
  split at stepped
  · rename_i txt
    cases stepped
    exact .inl ⟨txt, rfl⟩
  · rename_i plain
    refine .inr ⟨Bool.eq_false_iff.mpr plain, ?_⟩
    split at stepped <;> cases stepped <;> rfl

theorem acc_ips (ends : Acc (Follows dns) ⟨hostnames, []⟩) (ips : List Addr) :
    Acc (Follows dns) ⟨hostnames, ips⟩ := by
  induction ips with
  | nil => exact ends
  | cons ip ips ih =>
    constructor
    rintro iter ⟨choose, result, stepped⟩
    cases stepped
    exact ih

theorem acc_host (grounded : Acc (Names dns) host)
    (ends : Acc (Follows dns) ⟨hostnames, []⟩) : Acc (Follows dns) ⟨host :: hostnames, []⟩ := by
  induction grounded generalizing hostnames with
  | intro host _ ih =>
    constructor
    intro iter follows
    obtain ⟨txt, rfl⟩ | ⟨-, rfl⟩ := of_follows_host follows
    · have named : ∀ hosts, (∀ other ∈ hosts, other ∈ txtHosts dns host) →
          Acc (Follows dns) ⟨hosts ++ hostnames, []⟩ := by
        intro hosts all
        induction hosts with
        | nil => exact ends
        | cons other hosts ih' =>
          obtain ⟨here, later⟩ := List.forall_mem_cons.mp all
          exact ih other ⟨txt, here⟩ (ih' later)
      exact named _ fun _ mem => mem
    · exact acc_ips ends iter.ips

theorem grounded_of_acc {iter : HostResolverIter Addr} (ends : Acc (Follows dns) iter) :
    ∀ host ∈ iter.hostnames, Acc (Names dns) host := by
  induction ends with
  | intro iter _ ih =>
    obtain ⟨hostnames, ips⟩ := iter
    cases ips with
    | cons ip ips => exact ih ⟨hostnames, ips⟩ ⟨id, _, rfl⟩
    | nil =>
      cases hostnames with
      | nil => nofun
      | cons host hostnames =>
        rw [List.forall_mem_cons]
        cases txt : isTxt host with
        | true =>
          have all := ih _ (follows_txt txt)
          rw [List.forall_mem_append] at all
          exact ⟨.intro host fun other names => all.1 other names.2, all.2⟩
        | false =>
          have none : Follows dns ⟨hostnames, []⟩ ⟨host :: hostnames, []⟩ :=
            ⟨fun _ => [], none, by cases found : dns.lookupHost (withPort host) <;>
              simp [next, txt, found]⟩
          exact ⟨.intro host fun other names => absurd names.1 (by simp [txt]), ih _ none⟩

end

/-- **Resolution ends** exactly if no host of the list leads on for ever, from one TXT record to a
`txt:` host that it names and so on: then every sequence of calls and recursive calls, whatever
addresses are drawn, comes to an end, which is the `None` of an iterator without hosts and
addresses. -/
theorem resolution_ends_iff (dns : Dns Addr) (hostnames : List Host) :
    Acc (Follows dns) ⟨hostnames, []⟩ ↔ ∀ host ∈ hostnames, Acc (Names dns) host := by
  refine ⟨fun ends => grounded_of_acc ends, fun grounded => ?_⟩
  induction hostnames with
  | nil => exact ⟨_, fun iter ⟨choose, result, stepped⟩ => nomatch stepped⟩
  | cons host hostnames ih =>
    obtain ⟨here, later⟩ := List.forall_mem_cons.mp grounded
    exact acc_host here (ih later)

/-- The TXT record of every domain names one host. -/
def oneTxt (host : String) : Dns Addr := ⟨fun _ => some host.toList, fun _ => none⟩

/-- A TXT record that names its own host is asked for again and again. -/
theorem own_name_never_ends :
    ¬ Acc (Follows (oneTxt "txt:a" : Dns Nat)) ⟨["txt:a".toList], []⟩ := by
  intro ends
  have again : Follows (oneTxt "txt:a" : Dns Nat) ⟨["txt:a".toList], []⟩ ⟨["txt:a".toList], []⟩ :=
    ⟨id, none, rfl⟩
  exact Acc.recOn (motive := fun iter _ => Follows _ iter iter → False) ends
    (fun iter _ ih self => ih iter self self) again

end PeerLink.Stun
