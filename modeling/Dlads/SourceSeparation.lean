import Dlads.Correlation
import Dlads.ErasedInputs

/-!
# Correlation separates source addresses

All addresses share the map and the threat counter of a correlation engine. An
ingest reads and writes the map under its own address only, and the counter
shows in the identifier of a threat and nowhere else. What becomes of an
address in a run is therefore what becomes of it when its own alerts arrive
alone, however the alerts for other addresses are interleaved with them.
-/

namespace Dlads.SourceSeparation

open ByteText StringMaps Records StepMachine Correlation

/-- An alert with the clock reading of its ingest. -/
abbrev Ingest := AlertEvent × ℤ

/-- An ingest of an alert filed under an address. -/
def filedUnder (x : Bytes) (input : Ingest) : Bool := sourceIp input.1 = x

/-- A threat without its identifier. -/
def threatContents (threat : CorrelatedThreat) : CorrelatedThreat := { threat with threatId := [] }

/-- The threat of an ingest, if it is about an address, without its identifier. -/
def threatAbout (x : Bytes) (threat : Option CorrelatedThreat) : List CorrelatedThreat :=
  ((threat.filter fun threat => threat.sourceIp = x).map threatContents).toList

/-- The threats about an address that a run of ingests returns. -/
def threatsAbout (engine : CorrelationEngine) (x : Bytes) (inputs : List Ingest) :
    List CorrelatedThreat :=
  (correlator.outputs engine inputs).flatMap (threatAbout x)

/-- The entries stored under an address after a run of ingests; none when the
map has no such key. -/
def storedUnder (engine : CorrelationEngine) (x : Bytes) (inputs : List Ingest) :
    Option (List Entry) :=
  (correlator.finalState engine inputs).index.lookup x

/-- Engines that treat an address alike. -/
structure SameUnder (x : Bytes) (e f : CorrelationEngine) : Prop where
  /-- `window_sec_`. -/
  window : e.windowSec = f.windowSec
  /-- `threshold_`. -/
  threshold : e.threshold = f.threshold
  /-- `index_` under the address. -/
  entries : e.index.lookup x = f.index.lookup x

section steps

variable {x : Bytes} {e f : CorrelationEngine}

/-- The threat of an ingest is about the address the alert is filed under. -/
theorem threatAbout_ingest (alert : AlertEvent) (now : ℤ) :
    threatAbout x (e.ingest alert now).2 =
      if sourceIp alert = x ∧ e.threshold ≤ (ingestEntries e alert now).length then
        [threatContents (buildThreat e alert now (ingestEntries e alert now))]
      else [] := by
  have habout : (buildThreat e alert now (ingestEntries e alert now)).sourceIp = sourceIp alert :=
    rfl
  rw [ingest_snd]
  by_cases hq : e.threshold ≤ (ingestEntries e alert now).length
  · rw [if_neg (not_lt.mpr hq), threatAbout, Option.filter_some, habout]
    by_cases hx : sourceIp alert = x
    · rw [if_pos (decide_eq_true hx), if_pos ⟨hx, hq⟩]
      rfl
    · rw [if_neg (by rwa [decide_eq_true_eq]), if_neg fun h => hx h.1]
      rfl
  · rw [if_pos (not_le.mp hq), if_neg fun h => hq h.2]
    rfl

/-- Both engines ingest an alert for the address. -/
theorem ingest_filed (h : SameUnder x e f) {alert : AlertEvent} (now : ℤ)
    (hx : sourceIp alert = x) : SameUnder x (e.ingest alert now).1 (f.ingest alert now).1 ∧
      threatAbout x (e.ingest alert now).2 = threatAbout x (f.ingest alert now).2 := by
  have hentries : ingestEntries e alert now = ingestEntries f alert now := by
    rw [ingestEntries, ingestEntries, bucket, bucket, hx, h.entries, h.window]
  obtain ⟨hw, ht⟩ := ingest_config e alert now
  obtain ⟨hw', ht'⟩ := ingest_config f alert now
  constructor
  · refine ⟨?_, ?_, ?_⟩
    · rw [hw, hw', h.window]
    · rw [ht, ht', h.threshold]
    · rw [lookup_ingest, lookup_ingest, hentries, h.threshold, h.entries]
  · have hthreat : threatContents (buildThreat e alert now (ingestEntries f alert now)) =
        threatContents (buildThreat f alert now (ingestEntries f alert now)) := by
      simp only [threatContents, buildThreat, h.window]
    rw [threatAbout_ingest, threatAbout_ingest, hentries, h.threshold, hthreat]

/-- An alert for another address leaves this one alone. -/
theorem ingest_other (h : SameUnder x e f) {alert : AlertEvent} (now : ℤ)
    (hx : sourceIp alert ≠ x) :
    SameUnder x (e.ingest alert now).1 f ∧ threatAbout x (e.ingest alert now).2 = [] := by
  obtain ⟨hw, ht⟩ := ingest_config e alert now
  constructor
  · refine ⟨hw.trans h.window, ht.trans h.threshold, ?_⟩
    rw [lookup_ingest, if_neg hx.symm, h.entries]
  · rw [threatAbout_ingest, if_neg fun h => hx h.1]

end steps

/-- Alerts for other addresses can be taken out of a run. -/
theorem threatsAbout_filter (engine : CorrelationEngine) (x : Bytes) (inputs : List Ingest) :
    threatsAbout engine x inputs = threatsAbout engine x (inputs.filter (filedUnder x)) ∧
      storedUnder engine x inputs = storedUnder engine x (inputs.filter (filedUnder x)) := by
  have herasable : correlator.Erasable (filedUnder x) (threatAbout x) fun _ => SameUnder x :=
    ⟨fun i _ _ _ hk h => ingest_filed h i.2 (of_decide_eq_true hk),
      fun i _ _ _ hk h => ingest_other h i.2 (of_decide_eq_false hk)⟩
  have hstart : SameUnder x engine engine := ⟨rfl, rfl, rfl⟩
  have hrun := @Machine.Erasable.run _ _ _ _ _ _ _ _ herasable inputs engine engine hstart
  exact ⟨hrun.2, hrun.1.entries⟩

/-- What a run makes of an address is what it makes of the alerts for that
address alone, and so runs that bring these in the same order do the same
however they interleave them with alerts for other addresses. -/
theorem correlation_separate (engine : CorrelationEngine) (x : Bytes) :
    (∀ inputs, threatsAbout engine x inputs =
          threatsAbout engine x (inputs.filter (filedUnder x)) ∧
        storedUnder engine x inputs = storedUnder engine x (inputs.filter (filedUnder x))) ∧
      ∀ inputs inputs', inputs.filter (filedUnder x) = inputs'.filter (filedUnder x) →
        threatsAbout engine x inputs = threatsAbout engine x inputs' ∧
          storedUnder engine x inputs = storedUnder engine x inputs' := by
  refine ⟨threatsAbout_filter engine x, ?_⟩
  intro inputs inputs' h
  obtain ⟨hthreats, hstored⟩ := threatsAbout_filter engine x inputs
  obtain ⟨hthreats', hstored'⟩ := threatsAbout_filter engine x inputs'
  constructor
  · rw [hthreats, hthreats', h]
  · rw [hstored, hstored', h]

/-- A host reports an address at the start of the clock. -/
def report (host ip : Bytes) : Ingest :=
  ({ sourceHost := host, metadata := assign ∅ (text "src_ip") ip }, 0)

/-- Two nodes agree on an address, with a report of another address between
theirs or behind them. -/
theorem correlation_separate_twoOrders :
    let inputs := [report (text "a") (text "9"), report (text "b") (text "8"),
      report (text "b") (text "9")]
    let inputs' := [report (text "a") (text "9"), report (text "b") (text "9"),
      report (text "b") (text "8")]
    (threatsAbout (.init 120 2) (text "9") inputs = threatsAbout (.init 120 2) (text "9") inputs' ∧
        storedUnder (.init 120 2) (text "9") inputs =
          storedUnder (.init 120 2) (text "9") inputs') ∧
      threatsAbout (.init 120 2) (text "9") inputs ≠ [] := by
  intro inputs inputs'
  constructor
  · exact (correlation_separate (.init 120 2) (text "9")).2 inputs inputs' (by decide +kernel)
  · decide +kernel

end Dlads.SourceSeparation
