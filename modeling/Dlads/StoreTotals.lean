import Dlads.AlertDatabase
import Dlads.Heartbeats
import Dlads.RingStorage

/-!
# The totals on the statistics page

The store keeps the last hundred alerts and the last fifty threats in memory,
whatever the number of saves. The totals of `/stats` are the lengths of these
lists, so they are right up to the limits and stand still beyond them.
-/

namespace Dlads.StoreTotals

open ByteText Records Correlation RingStorage AlertDatabase Registry Heartbeats

/-- `alert_count`. -/
def alertCount (store : AlertStore) : ℤ := store.recentAlerts.length

/-- `threat_count`. -/
def threatCount (store : AlertStore) : ℤ := store.recentThreats.length

/-- The object with the three numbers. -/
def statsText (totalAlerts totalThreats activeNodes : ℤ) : Bytes :=
  text "\x7b\"total_alerts\":" ++ dec totalAlerts ++
    (text ",\"total_threats\":" ++ dec totalThreats ++
      (text ",\"active_nodes\":" ++ dec activeNodes ++ text "\x7d"))

/-- The body that `/stats` serves. -/
def statsBody (store : AlertStore) (registry : NodeRegistry) : Bytes :=
  statsText (alertCount store) (threatCount store) registry.aliveCount

/-- A call that saves something. -/
inductive Save
  /-- `save_alert`. -/
  | alert (alert : AlertEvent)
  /-- `save_threat`. -/
  | threat (threat : CorrelatedThreat)

/-- The store after a call. -/
def save (store : AlertStore) : Save → AlertStore
  | .alert alert => store.saveAlert alert
  | .threat threat => store.saveThreat threat

/-- The store after the calls of one process. -/
def saveAll (database : AlertStore) (calls : List Save) : AlertStore :=
  calls.foldl save database.reopen

/-- The alert a call saves. -/
def Save.alert? : Save → Option AlertEvent
  | .alert saved => some saved
  | .threat _ => none

/-- The threat a call saves. -/
def Save.threat? : Save → Option CorrelatedThreat
  | .alert _ => none
  | .threat saved => some saved

/-- The saved alerts in order of arrival. -/
def savedAlerts (calls : List Save) : List AlertEvent := calls.filterMap Save.alert?

/-- The saved threats in order of arrival. -/
def savedThreats (calls : List Save) : List CorrelatedThreat := calls.filterMap Save.threat?

/-- The lists are sliding windows of what was saved, and `/stats` counts all
of it. -/
structure Accounts (store : AlertStore) (calls : List Save) (registry : NodeRegistry) : Prop where
  /-- `get_recent_alerts` returns the last hundred alerts. -/
  alerts : store.recentAlerts = (savedAlerts calls).rtake 100
  /-- `get_recent_threats` returns the last fifty threats. -/
  threats : store.recentThreats = (savedThreats calls).rtake 50
  /-- `/stats` serves the numbers of saves. -/
  stats : statsBody store registry =
    statsText (savedAlerts calls).length (savedThreats calls).length registry.aliveCount

section windows

variable {α : Type*}

theorem length_rtake (limit : ℕ) (xs : List α) : (xs.rtake limit).length = min xs.length limit := by
  rw [List.rtake, List.length_drop]
  omega

/-- A push onto a window gives the window after one more element. -/
theorem pushRecent_rtake (limit : ℕ) (xs : List α) (x : α) :
    pushRecent limit (xs.rtake limit) x = (xs ++ [x]).rtake limit := by
  have hlen : (xs.rtake limit ++ [x]).length = min xs.length limit + 1 := by
    rw [List.length_append, List.length_singleton, length_rtake]
  have hkept : ((xs.rtake limit ++ [x]).rtake limit) =
      (xs.rtake limit ++ [x]).drop (min xs.length limit + 1 - limit) := by
    rw [← hlen]
    rfl
  rw [← rtake_concat_rtake, hkept, pushRecent, hlen]
  split
  · next h =>
    have hdrop : min xs.length limit + 1 - limit = 1 := by omega
    rw [hdrop]
  · next h => rw [Nat.sub_eq_zero_of_le (by omega), List.drop_zero]

/-- The lists after the calls are the last elements of what was saved. -/
theorem windows_saveAll (database : AlertStore) (calls : List Save) :
    (saveAll database calls).recentAlerts = (savedAlerts calls).rtake 100 ∧
    (saveAll database calls).recentThreats = (savedThreats calls).rtake 50 := by
  induction calls using List.reverseRecOn with
  | nil => exact ⟨rfl, rfl⟩
  | append_singleton calls call ih =>
    rw [saveAll, List.foldl_append, List.foldl_cons, List.foldl_nil, savedAlerts, savedThreats,
      List.filterMap_append, List.filterMap_append]
    obtain ⟨halerts, hthreats⟩ := ih
    cases call with
    | alert saved =>
      refine ⟨(congrArg (pushRecent 100 · saved) halerts).trans (pushRecent_rtake 100 _ saved), ?_⟩
      exact hthreats.trans (congrArg (List.rtake · 50) (List.append_nil _).symm)
    | threat saved =>
      refine ⟨?_, (congrArg (pushRecent 50 · saved) hthreats).trans (pushRecent_rtake 50 _ saved)⟩
      exact halerts.trans (congrArg (List.rtake · 100) (List.append_nil _).symm)

end windows

section totals

/-- A number before a comma is the same number in the same text. -/
theorem dec_comma_inj {m n : ℤ} {s t : Bytes} (h : dec m ++ 44 :: s = dec n ++ 44 :: t) :
    m = n ∧ s = t := by
  have hword : ∀ (k : ℤ) (u : Bytes), (dec k ++ 44 :: u).takeWhile (· != 44) = dec k := by
    intro k u
    rw [List.takeWhile_append_of_pos, List.takeWhile_cons_of_neg (by decide), List.append_nil]
    intro c hc
    have hne : c ≠ 44 := fun he => not_mem_dec (by decide) (by decide) k (he ▸ hc)
    simpa using hne
  have hdec : dec m = dec n := by
    rw [← hword m s, h, hword]
  rw [hdec] at h
  exact ⟨dec_injective hdec, (List.cons.inj (List.append_cancel_left h)).2⟩

/-- The object tells its totals apart. -/
theorem statsText_inj {a b c d n : ℤ} (h : statsText a b n = statsText c d n) :
    a = c ∧ b = d := by
  have hthreats : text ",\"total_threats\":" = 44 :: text "\"total_threats\":" := rfl
  have hnodes : text ",\"active_nodes\":" = 44 :: text "\"active_nodes\":" := rfl
  simp only [statsText, hthreats, hnodes, List.append_assoc, List.cons_append] at h
  obtain ⟨hac, hrest⟩ := dec_comma_inj (List.append_cancel_left h)
  exact ⟨hac, (dec_comma_inj (List.append_cancel_left hrest)).1⟩

variable (database : AlertStore) (calls : List Save) (registry : NodeRegistry)

/-- The totals stop at the limits. -/
theorem statsBody_saveAll : statsBody (saveAll database calls) registry =
    statsText (min (savedAlerts calls).length 100 : ℕ) (min (savedThreats calls).length 50 : ℕ)
      registry.aliveCount := by
  obtain ⟨halerts, hthreats⟩ := windows_saveAll database calls
  rw [statsBody, alertCount, threatCount, halerts, hthreats, length_rtake, length_rtake]

/-- The accounts are right exactly up to a hundred alerts and fifty threats. -/
theorem accounts_iff : Accounts (saveAll database calls) calls registry ↔
    (savedAlerts calls).length ≤ 100 ∧ (savedThreats calls).length ≤ 50 := by
  obtain ⟨halerts, hthreats⟩ := windows_saveAll database calls
  constructor
  · intro h
    have hsame := h.stats
    rw [statsBody_saveAll] at hsame
    obtain ⟨ha, ht⟩ := statsText_inj hsame
    omega
  · rintro ⟨ha, ht⟩
    refine ⟨halerts, hthreats, ?_⟩
    rw [statsBody_saveAll, Nat.min_eq_left ha, Nat.min_eq_left ht]

end totals

/-- The first alerts of an agent's process. -/
def firstAlerts (n : ℕ) : List Save :=
  (List.range n).map fun k => .alert
    { alertId := (nextId (firstId + UInt64.ofNat k)).1
      sourceHost := text "agent-1"
      ruleId := text "SSH_BRUTE_FORCE"
      severity := .high }

/-- After 101 alerts the total is 100. -/
theorem hundredAndOne : statsBody (saveAll .init (firstAlerts 101)) (.init 30) =
      text "\x7b\"total_alerts\":100,\"total_threats\":0,\"active_nodes\":0\x7d" ∧
    ¬Accounts (saveAll .init (firstAlerts 101)) (firstAlerts 101) (.init 30) := by
  have halerts : (savedAlerts (firstAlerts 101)).length = 101 := by decide +kernel
  have hthreats : (savedThreats (firstAlerts 101)).length = 0 := by decide +kernel
  refine ⟨?_, fun h => ?_⟩
  · rw [statsBody_saveAll, halerts, hthreats]
    decide +kernel
  · have hsame := h.stats
    rw [statsBody_saveAll, halerts, hthreats] at hsame
    exact absurd (statsText_inj hsame).1 (by decide)

end Dlads.StoreTotals
