import Dlads.AlertDatabase
import Dlads.CorrelationHistory

/-!
# The address stored and the address correlated

`save_alert` takes the address of an alert from the metadata key `source_ip`,
`ingest` from `src_ip` and only then from `source_ip`; both fall back to the
host. The row of an alert holds the address that the alert is filed under
exactly if `src_ip` is missing or repeats the other address. A threat can be
joined with the rows of its alerts exactly if each alert that has a row is of
this kind.
-/

namespace Dlads.SourceColumns

open ByteText StringMaps Records StepMachine Correlation KeyedTable AlertDatabase
  CorrelationHistory

/-- The address that `save_alert` binds is the one that `ingest` files under. -/
def Agrees (alert : AlertEvent) : Prop :=
  (alertContents alert).bind.sourceIp = sourceIp alert

/-- The metadata key `src_ip` repeats the address under `source_ip`, or the
host, as far as it is bound; without the key the address holds no NUL. -/
def Matches (alert : AlertEvent) : Prop :=
  let address := (alert.metadata.lookup (text "source_ip")).getD alert.sourceHost
  match alert.metadata.lookup (text "src_ip") with
  | some ip => ip = cStr address
  | none => 0 ∉ address

/-- The receiver takes one alert after another; a step returns the threat
handed to `save_threat`, if any. -/
def receiver : Machine Coordinator (AlertEvent × ℤ) (Option CorrelatedThreat) where
  step := fun c input => c.receive input.1 input.2

section runs

variable (store : AlertStore) (alerts : ℕ → AlertEvent) (clock : ℕ → ℤ)

/-- The coordinator on a database, before an alert. -/
def coordinatorAt (n : ℕ) : Coordinator :=
  receiver.stateAt (.start store) (fun k => (alerts k, clock k)) n

/-- The threat that an alert completes. -/
def savedThreat (n : ℕ) : Option CorrelatedThreat :=
  receiver.outputAt (.start store) (fun k => (alerts k, clock k)) n

/-- The ingests of the receiver. -/
def ingests : Run := ⟨120, 2, alerts, clock⟩

/-- A row is the one that `save_alert` appends for an alert; an alert whose
identifier is taken has none. -/
def IsRow (i : ℕ) (row : AlertRow) : Prop :=
  ((coordinatorAt store alerts clock i).store.saveAlert (alerts i)).alerts =
    (coordinatorAt store alerts clock i).store.alerts ++ [row]

end runs

section columns

theorem columnIp_eq (alert : AlertEvent) : columnIp alert =
    (alert.metadata.lookup (text "source_ip")).getD alert.sourceHost := by
  unfold columnIp
  cases alert.metadata.lookup (text "source_ip") with
  | none => rfl
  | some ip => rfl

/-- The two components agree on an alert exactly if its metadata match. -/
theorem agrees_iff (alert : AlertEvent) : Agrees alert ↔ Matches alert := by
  have hcolumn : (alertContents alert).bind.sourceIp = cStr (columnIp alert) := rfl
  unfold Agrees Matches sourceIp
  rw [hcolumn, ← columnIp_eq]
  cases alert.metadata.lookup (text "src_ip") with
  | some ip => exact eq_comm
  | none =>
    -- Without `src_ip` both components read the same keys.
    change cStr (columnIp alert) = columnIp alert ↔ _
    exact cStr_eq_self_iff (columnIp alert)

end columns

section threats

variable {store : AlertStore} {alerts : ℕ → AlertEvent} {clock : ℕ → ℤ}

/-- A receive ingests the alert and returns what the ingest returns. -/
theorem receive_engine (c : Coordinator) (alert : AlertEvent) (now : ℤ) :
    (c.receive alert now).1.engine = (c.engine.ingest alert now).1 ∧
      (c.receive alert now).2 = (c.engine.ingest alert now).2 := by
  unfold Coordinator.receive
  dsimp only
  split
  · next h => exact ⟨rfl, h.symm⟩
  · next threat h => exact ⟨rfl, h.symm⟩

/-- The database changes nothing of the correlation. -/
theorem engine_coordinatorAt (n : ℕ) :
    (coordinatorAt store alerts clock n).engine = (ingests alerts clock).engineAt n := by
  induction n with
  | zero => rfl
  | succ n ih =>
    have hstep := (receive_engine (coordinatorAt store alerts clock n) (alerts n) (clock n)).1
    rw [ih] at hstep
    exact hstep

theorem savedThreat_eq (n : ℕ) :
    savedThreat store alerts clock n = (ingests alerts clock).threatAt n := by
  have hstep := (receive_engine (coordinatorAt store alerts clock n) (alerts n) (clock n)).2
  rw [engine_coordinatorAt] at hstep
  exact hstep

/-- The row of an alert is bound from its contents. -/
theorem row_eq {i : ℕ} {row : AlertRow} (h : IsRow store alerts clock i row) :
    row = (alertContents (alerts i)).bind := by
  have hinsert : insertOrIgnore AlertRow.id (alertContents (alerts i)).bind
      (coordinatorAt store alerts clock i).store.alerts =
      (coordinatorAt store alerts clock i).store.alerts ++ [row] := h
  unfold insertOrIgnore at hinsert
  split at hinsert
  · exact absurd (congrArg List.length hinsert) (by simp)
  · exact (List.singleton_inj.mp (List.append_cancel_left hinsert)).symm

/-- An alert has a row exactly if its identifier is new. -/
theorem exists_row_iff (i : ℕ) : (∃ row, IsRow store alerts clock i row) ↔
    cStr (alerts i).alertId ∉ (coordinatorAt store alerts clock i).store.alerts.map AlertRow.id := by
  constructor
  · rintro ⟨row, hrow⟩ htaken
    have hinsert : insertOrIgnore AlertRow.id (alertContents (alerts i)).bind
        (coordinatorAt store alerts clock i).store.alerts =
        (coordinatorAt store alerts clock i).store.alerts ++ [row] := hrow
    rw [insertOrIgnore_of_taken htaken] at hinsert
    exact absurd (congrArg List.length hinsert) (by simp)
  · intro hfresh
    exact ⟨_, insertOrIgnore_of_fresh hfresh⟩

/-- Rows stay in the table. -/
theorem rows_receive (c : Coordinator) (alert : AlertEvent) (now : ℤ) :
    (c.receive alert now).1.store.alerts = (c.store.saveAlert alert).alerts := by
  unfold Coordinator.receive
  dsimp only
  split
  · rfl
  · rfl

theorem rows_grow {m n : ℕ} (h : m ≤ n) : (coordinatorAt store alerts clock m).store.alerts <+:
    (coordinatorAt store alerts clock n).store.alerts := by
  induction n, h using Nat.le_induction with
  | base => exact List.prefix_rfl
  | succ n hmn ih =>
    refine ih.trans ?_
    have hstep : (coordinatorAt store alerts clock (n + 1)).store.alerts =
        ((coordinatorAt store alerts clock n).store.saveAlert (alerts n)).alerts :=
      rows_receive _ _ _
    rw [hstep, AlertStore.saveAlert, insertOrIgnore]
    split
    · exact List.prefix_rfl
    · exact List.prefix_append _ _

/-- The row of an alert is in the table from its receive on. -/
theorem mem_of_isRow {i n : ℕ} {row : AlertRow} (h : IsRow store alerts clock i row)
    (hin : i ≤ n) : row ∈ (coordinatorAt store alerts clock (n + 1)).store.alerts := by
  have hrow : row ∈ (coordinatorAt store alerts clock (i + 1)).store.alerts := by
    have hstep : (coordinatorAt store alerts clock (i + 1)).store.alerts =
        ((coordinatorAt store alerts clock i).store.saveAlert (alerts i)).alerts :=
      rows_receive _ _ _
    rw [hstep, h]
    exact List.mem_append_right _ (List.mem_singleton_self row)
  exact (rows_grow (Nat.succ_le_succ hin)).subset hrow

/-- What a threat rests on was ingested by then, under the address of the
threat. -/
theorem evidence_of_threat {n : ℕ} {threat : CorrelatedThreat}
    (h : savedThreat store alerts clock n = some threat) :
    ∀ i ∈ evidence (ingests alerts clock) n, i ≤ n ∧ sourceIp (alerts i) = threat.sourceIp := by
  intro i hi
  have hwindow : 0 ≤ (ingests alerts clock).windowSec := Int.natCast_nonneg 120
  obtain ⟨hle, haddress, -⟩ := evidence_recent hwindow hi
  rw [savedThreat_eq] at h
  obtain ⟨-, rfl⟩ := (threatAt_eq_some _).mp h
  exact ⟨hle, haddress⟩

end threats

/-- The address bound for the row of an alert is the one the alert is filed
under exactly if its metadata match. In any run, on any database, the rows of
the alerts behind a threat are in the table when it is saved, and they hold its
address exactly if the metadata of each alert that has a row match. -/
theorem columns_agree_iff (store : AlertStore) (alerts : ℕ → AlertEvent) (clock : ℕ → ℤ) :
    (∀ alert, Agrees alert ↔ Matches alert) ∧
    ∀ n threat, savedThreat store alerts clock n = some threat →
      ((∀ i ∈ evidence (ingests alerts clock) n, ∀ row, IsRow store alerts clock i row →
          row ∈ (coordinatorAt store alerts clock (n + 1)).store.alerts ∧
            row.sourceIp = threat.sourceIp) ↔
        ∀ i ∈ evidence (ingests alerts clock) n, (∃ row, IsRow store alerts clock i row) →
          Matches (alerts i)) := by
  refine ⟨agrees_iff, fun n threat hthreat => ?_⟩
  have hevidence := evidence_of_threat hthreat
  constructor
  · rintro h i hi ⟨row, hrow⟩
    obtain ⟨-, hip⟩ := h i hi row hrow
    rw [row_eq hrow, ← (hevidence i hi).2] at hip
    exact (agrees_iff (alerts i)).mp hip
  · intro h i hi row hrow
    refine ⟨mem_of_isRow hrow (hevidence i hi).1, ?_⟩
    have hagrees : Agrees (alerts i) := (agrees_iff (alerts i)).mpr (h i hi ⟨row, hrow⟩)
    rw [row_eq hrow, ← (hevidence i hi).2]
    exact hagrees

/-- Two nodes report the address `x` under a metadata key. -/
def twoReports (key : Bytes) (n : ℕ) : AlertEvent where
  alertId := if n = 0 then text "A-alert-1" else text "B-alert-1"
  sourceHost := if n = 0 then text "A" else text "B"
  metadata := assign ∅ key (text "x")

theorem columns_twoReports :
    (savedThreat .init (twoReports (text "source_ip")) (fun _ => 0) 1).map
      CorrelatedThreat.sourceIp = some (text "x") ∧
    ∀ i ∈ evidence (ingests (twoReports (text "source_ip")) fun _ => 0) 1, ∀ row,
      IsRow .init (twoReports (text "source_ip")) (fun _ => 0) i row → row.sourceIp = text "x" := by
  have hsaved : (savedThreat .init (twoReports (text "source_ip")) (fun _ => 0) 1).map
      CorrelatedThreat.sourceIp = some (text "x") := by
    decide +kernel
  obtain ⟨threat, hthreat, hip⟩ := Option.map_eq_some_iff.mp hsaved
  have hmatches : ∀ i, Matches (twoReports (text "source_ip") i) := by
    intro i
    have hcolumn : (twoReports (text "source_ip") i).metadata.lookup (text "source_ip") =
        some (text "x") := (lookup_assign _ _ _ _).trans (if_pos rfl)
    have hnone : (twoReports (text "source_ip") i).metadata.lookup (text "src_ip") = none :=
      (lookup_assign _ _ _ _).trans (if_neg (by decide))
    unfold Matches
    rw [hcolumn, hnone, Option.getD_some]
    decide
  have hrows := ((columns_agree_iff .init (twoReports (text "source_ip")) fun _ => 0).2 1 threat
    hthreat).mpr fun i _ _ => hmatches i
  exact ⟨hsaved, fun i hi row hrow => (hrows i hi row hrow).2.trans hip⟩

/-- Under the key of the rule engine the rows hold the nodes and the threat
holds the address. -/
theorem ruleEngineKey_differs :
    (savedThreat .init (twoReports (text "src_ip")) (fun _ => 0) 1).map
      CorrelatedThreat.sourceIp = some (text "x") ∧
    evidence (ingests (twoReports (text "src_ip")) fun _ => 0) 1 = [0, 1] ∧
    (coordinatorAt .init (twoReports (text "src_ip")) (fun _ => 0) 2).store.alerts.map
      AlertRow.sourceIp = [text "A", text "B"] ∧
    ¬Agrees (twoReports (text "src_ip") 0) := by
  refine ⟨by decide +kernel, by decide +kernel, by decide +kernel, ?_⟩
  intro h
  unfold Agrees at h
  exact absurd h (by decide +kernel)

end Dlads.SourceColumns
