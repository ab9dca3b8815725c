import PeerLink.Acl.Filter

/-!
# Eviction from the rule cache

`cleanup_cache` sorts what the cache hands out by the last access and removes entries from the
front, down to the maximum and a fifth of it more.
-/

namespace PeerLink.Acl.AclProcessor

/-- **Eviction is least recently used.** A cache over the maximum is left with the maximum less a
fifth, and nothing that was removed was accessed later than something that was kept; a cache that
is not over the maximum stays as it is. -/
theorem cleanupCache_leastRecentlyUsed (env : AclEnv) (cache : RuleCache) (maxSize : Nat) :
    (maxSize < cache.entries.length →
      (cleanupCache env cache maxSize).entries.length = maxSize - maxSize / 5 ∧
      ∃ removed, cache.entries.Perm (removed ++ (cleanupCache env cache maxSize).entries) ∧
        ∀ old ∈ removed, ∀ kept ∈ (cleanupCache env cache maxSize).entries,
          old.2.lastAccess ≤ kept.2.lastAccess) ∧
    (cache.entries.length ≤ maxSize → cleanupCache env cache maxSize = cache) := by
  refine ⟨fun large => ?_, fun within => if_pos within⟩
  let earlier (a b : Σ _ : AclCacheKey, AclCacheEntry) : Prop := a.2.lastAccess ≤ b.2.lastAccess
  have total : Std.Total earlier := ⟨fun a b => Nat.le_total _ _⟩
  have trans : IsTrans _ earlier := ⟨fun a b c => Nat.le_trans⟩
  let oldest := (env.cacheOrder.order cache.entries).insertionSort earlier
  let toRemove := cache.entries.length - maxSize + maxSize / 5
  have sorted : cache.entries.Perm (oldest.take toRemove ++ oldest.drop toRemove) := by
    rw [List.take_append_drop]
    exact ((List.perm_insertionSort _ _).trans (env.cacheOrder.perm cache.entries)).symm
  have kept : (cleanupCache env cache maxSize).entries.Perm (oldest.drop toRemove) := by
    rw [cleanupCache, if_neg (Nat.not_le.mpr large)]
    exact Best.foldl_erase_perm sorted
  have ascending : oldest.Pairwise earlier := List.pairwise_insertionSort earlier _
  rw [← List.take_append_drop toRemove oldest, List.pairwise_append] at ascending
  refine ⟨?_, oldest.take toRemove, sorted.trans (kept.symm.append_left _), ?_⟩
  · have all := sorted.length_eq
    rw [List.take_append_drop] at all
    rw [kept.length_eq, List.length_drop, ← all]
    omega
  · intro old mem other mem'
    exact ascending.2.2 old mem other (kept.mem_iff.mp mem')

def twoEntries : RuleCache :=
  [⟨.fromPacketInfo sampleHandler.packetInfo .inbound, ⟨.default, 7, none, [], .inbound, none, []⟩⟩,
    ⟨.fromPacketInfo sampleHandler.packetInfo .outbound,
      ⟨.default, 5, none, [], .outbound, none, []⟩⟩].toAList

theorem older_entry_evicted :
    1 < twoEntries.entries.length ∧ (cleanupCache sampleEnv twoEntries 1).entries.length = 1 :=
  have large : 1 < twoEntries.entries.length := by decide +kernel
  ⟨large, ((cleanupCache_leastRecentlyUsed sampleEnv twoEntries 1).1 large).1⟩

end PeerLink.Acl.AclProcessor
