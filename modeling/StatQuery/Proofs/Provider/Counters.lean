import StatQuery.Provider.Counters
import StatQuery.Decimal.Power

/-!
# What a set of counters comes to

A set of counters sums up the activities that it has recorded: modulo 2⁶⁴ in any case
(`foldl_record`), and exactly as long as the sums fit (`totals_foldl_record`). The number of entries is the
one that was told last.
-/

namespace StatQuery

namespace Counters

/-- The sum of one count over some activities. -/
def total (part : Activity → UInt64) : List Activity → Nat
  | [] => 0
  | activity :: rest => (part activity).toNat + total part rest

/-- The number of entries that was told last, if any was. -/
def lastSize (activities : List Activity) : Option UInt64 :=
  (activities.filterMap Activity.size).getLast?

/-- The counters are the sums of some activities, and the size that was told last. -/
structure Totals (counters : Counters) (activities : List Activity) : Prop where
  hits : counters.hits.toNat = total Activity.hits activities
  misses : counters.misses.toNat = total Activity.misses activities
  evictions : counters.evictions.toNat = total Activity.evictions activities
  size : counters.size = (lastSize activities).getD 0

/-- No sum is too large: neither that of the evictions nor that of all look-ups. -/
structure InBounds (activities : List Activity) : Prop where
  lookups : total Activity.hits activities + total Activity.misses activities < twoTo 64
  evictions : total Activity.evictions activities < twoTo 64

variable {activities : List Activity}

theorem add_ofNat_total_cons (part : Activity → UInt64) (count : UInt64) (activity : Activity)
    (activities : List Activity) :
    count + part activity + .ofNat (total part activities) =
      count + .ofNat (total part (activity :: activities)) := by
  rw [total, UInt64.ofNat_add, UInt64.ofNat_toNat, UInt64.add_assoc]

theorem getD_lastSize_cons (size : UInt64) (activity : Activity) (activities : List Activity) :
    (lastSize activities).getD (activity.size.getD size) =
      (lastSize (activity :: activities)).getD size := by
  rw [lastSize, lastSize, List.filterMap_cons]
  cases activity.size with
  | none => rfl
  | some told =>
    rw [List.getLast?_cons]
    rfl

/-- The counters count modulo 2⁶⁴. -/
theorem foldl_record (counters : Counters) (activities : List Activity) :
    activities.foldl record counters =
      ⟨counters.hits + .ofNat (total Activity.hits activities),
        counters.misses + .ofNat (total Activity.misses activities),
        counters.evictions + .ofNat (total Activity.evictions activities),
        (lastSize activities).getD counters.size⟩ := by
  induction activities generalizing counters with
  | nil => simp [total, lastSize]
  | cons activity rest ih =>
    rw [List.foldl_cons, ih, record]
    simp only [add_ofNat_total_cons, getD_lastSize_cons]

/-- Sums that are not too large are exact. -/
theorem totals_foldl_record (h : InBounds activities) :
    (activities.foldl record zero).Totals activities := by
  obtain ⟨hlookups, hevictions⟩ := h
  rw [twoTo_64] at hlookups hevictions
  rw [foldl_record]
  constructor
  · simp only [zero, UInt64.zero_add, UInt64.toNat_ofNat']
    exact Nat.mod_eq_of_lt (by omega)
  · simp only [zero, UInt64.zero_add, UInt64.toNat_ofNat']
    exact Nat.mod_eq_of_lt (by omega)
  · simp only [zero, UInt64.zero_add, UInt64.toNat_ofNat']
    exact Nat.mod_eq_of_lt hevictions
  · rfl

/-- The look-ups do not overflow when they are added. -/
theorem Totals.lookups_lt {counters : Counters} (h : counters.Totals activities)
    (hbound : InBounds activities) : counters.hits.toNat + counters.misses.toNat < twoTo 64 := by
  rw [h.hits, h.misses]
  exact hbound.lookups

end Counters

namespace CacheStats

/-- The ratio is missing as long as there was no look-up. -/
theorem ratioJson_eq_null_iff {stats : CacheStats}
    (h : stats.hits.toNat + stats.misses.toNat < twoTo 64) :
    stats.ratioJson = .null ↔ stats.hits.toNat + stats.misses.toNat = 0 := by
  have hzero : stats.hits + stats.misses = 0 ↔ stats.hits.toNat + stats.misses.toNat = 0 := by
    rw [twoTo_64] at h
    rw [← UInt64.toNat_inj, UInt64.toNat_add, Nat.mod_eq_of_lt h]
    rfl
  rw [ratioJson, hitRatio, ← hzero]
  split
  · next hnone => simp [hnone, Json.ofOption]
  · next hsome => simp [hsome, Json.ofOption]

end CacheStats

end StatQuery
