import Dlads.AgentPipeline
import Dlads.OffenderCooldown
import Dlads.RaisedAlerts
import Dlads.SimulatedLogs

/-!
# What an agent makes of the simulator's logs

An agent that watches a simulator's log decides on the text of its lines. On
the lines themselves the decisions are short: a failed login raises an alert on
the number of failed logins, a rejected packet on the number of ports, a
failure of one service on one of the other, the session of the new user on
none before, and background lines raise none. What the agent returns is what is
decided on the lines, whatever the parser's clock and the configuration are.
-/

namespace Dlads.SimulatedAttacks

open ByteText StringMaps Records YamlConfig TextSearch LineParsing KeyValueScan SyslogLines
open IndexedHistory DetectionRules NaiveScan RingStorage RuleDriver RaisedAlerts AgentPipeline
open OffenderCooldown SimulatedLogs

section decisions

/-- A failed login. -/
def isLogin : Line → Bool
  | .sshFail _ => true
  | _ => false

/-- A failed login or a failure of a service. -/
def isFailure : Line → Bool
  | .sshFail _ => true
  | .nginxFail => true
  | .sshdFail => true
  | _ => false

/-- The port of a rejected packet, counted from 1024. -/
def port? : Line → Option (Fin 60)
  | .portScan i => some i
  | _ => none

/-- A time in a window before another. -/
def recent (window now time : ℤ) : Bool := now - seconds window ≤ time

/-- The ports of the rejected packets in a window. -/
def portsHit (past : List (Line × ℤ)) (window now : ℤ) : Finset (Fin 60) :=
  (past.filterMap fun x => if recent window now x.2 then port? x.1 else none).toFinset

/-- The decision of a rule on a line, with the lines of the last day and their
times, the line itself the last of them. -/
def decided (rules : RuleConfig) (past : List (Line × ℤ)) (now : ℤ) : Line → Rule → Bool
  | .sshFail _, .sshBruteForce =>
    rules.sshThreshold ≤ 1 + (past.countP fun x =>
      isLogin x.1 && recent rules.sshWindowSeconds now x.2 : ℕ)
  | .portScan i, .portScan =>
    rules.scanThreshold ≤ (insert i (portsHit past rules.scanWindowSeconds now)).card
  | .sudoOpen, .privEsc =>
    !past.any fun x => x.1 = .sudoOpen && now - hours rules.privHistoryHours ≤ x.2 && x.2 < now
  | .sshFail _, .multiServiceAuth => rules.multiMinServices ≤ 1
  | .nginxFail, .multiServiceAuth =>
    rules.multiMinServices ≤ if past.any fun x =>
      x.1 = .sshdFail && recent rules.multiWindowSeconds now x.2 then 2 else 1
  | .sshdFail, .multiServiceAuth =>
    rules.multiMinServices ≤ if past.any fun x =>
      x.1 = .nginxFail && recent rules.multiWindowSeconds now x.2 then 2 else 1
  | _, _ => false

/-- What a rule looks for in a line. -/
def lineSubject (cfg : AgentConfig) : Rule → Line → Option Bytes
  | .sshBruteForce, .sshFail _ => some cfg.atkSsh
  | .portScan, .portScan _ => some cfg.atkScan
  | .privEsc, .sudoOpen => some (text "newuser")
  | .multiServiceAuth, .sshFail _ => some cfg.atkSsh
  | .multiServiceAuth, .nginxFail => some cfg.atkMulti
  | .multiServiceAuth, .sshdFail => some cfg.atkMulti
  | _, _ => none

end decisions

/-- An agent that watches a simulator's log. -/
structure Simulation where
  /-- The simulator's configuration. -/
  cfg : AgentConfig
  /-- The lines of the log, in order. -/
  lines : ℕ → Line
  /-- Their timestamps. -/
  stamps : ℕ → Stamp
  /-- The clock readings of the parser. -/
  clocks : ℕ → Clock
  /-- The agent's node id. -/
  nodeId : Bytes
  /-- Configuration of the rule engine. -/
  rules : RuleConfig
  /-- Clock readings of the rule engine. -/
  readings : ℕ → Rule → Reading

namespace Simulation

variable (sim : Simulation)

/-- The event that the parser makes of a line. -/
def event (n : ℕ) : LogEvent :=
  (parse (sim.clocks n) ((sim.lines n).print sim.cfg (sim.stamps n).text)).getD {}

/-- The events that arrive at the agent. -/
def feed : Feed where
  nodeId := sim.nodeId
  cfg := sim.rules
  events := sim.event
  readings := sim.readings

/-- The time that the parser finds in a line. -/
def time (n : ℕ) : ℤ := (sim.event n).timestamp

/-- The lines in the ring at the arrival of a line, with their times. -/
def retained (n : ℕ) : List (Line × ℤ) :=
  ((List.range (n + 1)).map fun k => (sim.lines k, sim.time k)).rtake ringCapacity

/-- Those of the last day. -/
def past (n : ℕ) : List (Line × ℤ) :=
  (sim.retained n).filter fun x => sim.time n - hours 24 ≤ x.2

end Simulation

/-- An event says what a line says. -/
structure ReadAs (cfg : AgentConfig) (l : Line) (ev : LogEvent) : Prop where
  /-- Who logs it. -/
  source : ev.logSource = l.source
  /-- What is logged. -/
  message : ev.message = l.message cfg
  /-- The address. -/
  address : extractSrcIp ev = l.address cfg

section texts

variable {cfg : AgentConfig}

theorem icontains_append_left {s needle : Bytes} (h : icontains s needle = true) (t : Bytes) :
    icontains (s ++ t) needle = true := by
  rw [icontains, isearch_iff_infix] at h ⊢
  rw [List.map_append]
  exact h.trans (List.prefix_append _ _).isInfix

theorem icontains_append_right {t needle : Bytes} (s : Bytes) (h : icontains t needle = true) :
    icontains (s ++ t) needle = true := by
  rw [icontains, isearch_iff_infix] at h ⊢
  rw [List.map_append]
  exact h.trans (List.suffix_append _ _).isInfix

/-- A needle of which some letter is missing is not found. -/
theorem icontains_eq_false {z : UInt8} {s needle : Bytes} (hz : z ∈ needle.map toLower)
    (hs : z ∉ s.map toLower) : icontains s needle = false := by
  rw [Bool.eq_false_iff]
  intro h
  rw [icontains, isearch_iff_infix] at h
  exact hs (h.subset hz)

/-- No letter beyond `f` stands in an address. -/
theorem not_mem_address {ip : Bytes} (hip : ∀ c ∈ ip, SourceAttribution.isIpChar c = true)
    {z : UInt8} (hz : 102 < z.toNat) : z ∉ ip.map toLower := by
  intro h
  obtain ⟨c, hc, rfl⟩ := List.mem_map.mp h
  exact absurd hz (not_lt.mpr (SimulatedLogs.address_byte (hip c hc)).2)

/-- Which lines the SSH rule takes for failed logins. -/
theorem login_texts (l : Line) : (SshBruteForceRule.isSource l.source &&
    SshBruteForceRule.isFailure (l.message cfg)) = isLogin l := by
  obtain ⟨hssh, -, hmulti⟩ := attacker_chars cfg
  cases l with
  | background idx =>
    have hturn : ∀ k < 5, (SshBruteForceRule.isSource (sources.getD k [])) = false := by decide
    have hsource : SshBruteForceRule.isSource (Line.background idx).source = false :=
      hturn (idx % 5) (Nat.mod_lt idx (by decide))
    rw [hsource]
    rfl
  | sshFail i =>
    have hfront : icontains ((Line.sshFail i).message cfg) (text "Failed password") = true :=
      icontains_append_left (by decide) _
    rw [SshBruteForceRule.isFailure, hfront]
    rfl
  | sshdFail =>
    have hletter : ∀ z ∈ [119, 118], (102 < (z : UInt8).toNat ∧
        z ∉ (text "authentication failure from ").map toLower) := by decide +kernel
    have hnot : ∀ z ∈ [119, 118], z ∉ (Line.sshdFail.message cfg).map toLower := by
      intro z hz
      rw [Line.message, List.map_append, List.mem_append, not_or]
      exact ⟨(hletter z hz).2, not_mem_address hmulti (hletter z hz).1⟩
    rw [SshBruteForceRule.isFailure, icontains_eq_false (z := 119) (by decide) (hnot _ (by simp)),
      icontains_eq_false (z := 118) (by decide) (hnot _ (by simp))]
    rfl
  | portScan | nginxFail | sudoOpen | started => rfl

/-- Which lines the rule for several services takes for failures. -/
theorem failure_texts (l : Line) :
    MultiServiceAuthRule.isFailure (l.message cfg) = isFailure l := by
  obtain ⟨-, hscan, -⟩ := attacker_chars cfg
  cases l with
  | background idx =>
    have hturn : ∀ k < 5, MultiServiceAuthRule.isFailure (msgs.getD k []) = false := by decide
    exact hturn (idx % 5) (Nat.mod_lt idx (by decide))
  | sshFail i =>
    have hfront : icontains ((Line.sshFail i).message cfg) (text "Failed password") = true :=
      icontains_append_left (by decide) _
    rw [MultiServiceAuthRule.isFailure, hfront, Bool.or_true]
    rfl
  | portScan i =>
    have hletter : ∀ z ∈ [117, 119, 111, 118], (102 < (z : UInt8).toNat ∧
        z ∉ (text "iptables REJECT IN=eth0 SRC=").map toLower ∧
          z ∉ (text " DST=10.0.0.1 DPT=").map toLower) := by decide +kernel
    have hnot : ∀ z ∈ [117, 119, 111, 118], z ∉ ((Line.portScan i).message cfg).map toLower := by
      intro z hz
      obtain ⟨hhigh, hfront, hdst⟩ := hletter z hz
      simp only [Line.message, List.map_append, List.mem_append, not_or]
      exact ⟨hfront, not_mem_address hscan hhigh, hdst,
        not_mem_address (fun c hc => isIpChar_of_mem_decNat hc) hhigh⟩
    rw [MultiServiceAuthRule.isFailure,
      icontains_eq_false (z := 117) (by decide) (hnot _ (by simp)),
      icontains_eq_false (z := 119) (by decide) (hnot _ (by simp)),
      icontains_eq_false (z := 111) (by decide) (hnot _ (by simp)),
      icontains_eq_false (z := 118) (by decide) (hnot _ (by simp))]
    rfl
  | nginxFail | sshdFail =>
    have hfront : ∀ t, icontains (text "authentication failure from " ++ t)
        (text "authentication failure") = true := icontains_append_left (by decide)
    rw [MultiServiceAuthRule.isFailure, Line.message, hfront]
    rfl
  | sudoOpen =>
    have hclosed : MultiServiceAuthRule.isFailure
        (text "pam_unix(sudo:session): session opened for user root by newuser(uid=1001)") =
          false := by decide
    exact hclosed
  | started =>
    have hclosed : MultiServiceAuthRule.isFailure (text "DLADS simulator started") = false := by
      decide
    exact hclosed

/-- Which lines the port-scan rule looks at, and the ports it finds. -/
theorem packet_texts (l : Line) : (l.source == text "kernel" &&
      icontains (l.message cfg) (text "REJECT")) = (port? l).isSome ∧
    (l.source == text "kernel" && icontains (l.message cfg) (text "DPT=")) = (port? l).isSome ∧
    ∀ i, port? l = some i → parseDpt (l.message cfg) = 1024 + (i : ℕ) := by
  obtain ⟨-, hscan, -⟩ := attacker_chars cfg
  cases l with
  | background idx =>
    have hturn : ∀ k < 5, (sources.getD k [] == text "kernel" &&
        icontains (msgs.getD k []) (text "REJECT")) = false ∧
        (sources.getD k [] == text "kernel" && icontains (msgs.getD k []) (text "DPT=")) = false := by
      decide
    obtain ⟨hreject, hdpt⟩ := hturn (idx % 5) (Nat.mod_lt idx (by decide))
    exact ⟨hreject, hdpt, by simp [port?]⟩
  | portScan i =>
    have hdpt : icontains ((Line.portScan i).message cfg) (text "DPT=") = true :=
      icontains_append_right _ (icontains_append_right _ (icontains_append_left (by decide) _))
    have hreject : icontains ((Line.portScan i).message cfg) (text "REJECT") = true :=
      icontains_append_left (by decide) _
    refine ⟨by rw [hreject]; rfl, by rw [hdpt]; rfl, ?_⟩
    rintro j hj
    cases hj
    have hdigits : (decNat (1024 + (i : ℕ))).takeWhile (!(text " \t\x0d\n").contains ·) =
        decNat (1024 + (i : ℕ)) := by
      rw [List.takeWhile_eq_self_iff]
      intro c hc
      have hnone : ∀ x ∈ text " \t\x0d\n", isDigit x = false := by decide +kernel
      by_contra hin
      have hdigit := hnone c (by simpa using hin)
      rw [isDigit_of_mem_decNat hc] at hdigit
      cases hdigit
    have hmessage : (Line.portScan i).message cfg =
        (text "iptables REJECT IN=eth0 SRC=" ++ (cfg.atkScan ++ text " DST=10.0.0.1")) ++
          32 :: (text "DPT=" ++ decNat (1024 + i)) := by
      have hdst : text " DST=10.0.0.1 DPT=" = text " DST=10.0.0.1" ++ 32 :: text "DPT=" := by decide
      simp [Line.message, hdst]
    have hfront : 80 ∉ text "iptables REJECT IN=eth0 SRC=" ++
        (cfg.atkScan ++ text " DST=10.0.0.1") := by
      have hlead : 80 ∉ text "iptables REJECT IN=eth0 SRC=" := by decide
      have hdst : 80 ∉ text " DST=10.0.0.1" := by decide
      simp [hlead, hdst, not_mem_of_chars hscan (z := 80) (by decide)]
    have hval : parseKvField ((Line.portScan i).message cfg) (text "DPT=") =
        decNat (1024 + i) := by
      rw [SourceAttribution.parseKvField_eq, hmessage, after_append_sep (by decide) (by decide),
        after_eq_none (z := 80) (by decide) hfront, Option.map_none, Option.none_or,
        after_self_append (by decide), Option.map_some, Option.getD_some, hdigits]
    have hne : (decNat (1024 + (i : ℕ))).isEmpty = false := by simpa using decNat_ne_nil _
    have hsmall : 1024 + (i : ℕ) ≤ 2147483647 := by omega
    rw [parseDpt, hval]
    simp only [hne, fromChars_decNat hsmall, Bool.false_eq_true, if_false, Option.getD_some]
    push_cast
    rfl
  | sshFail | nginxFail | sshdFail | sudoOpen | started => exact ⟨rfl, rfl, by simp [port?]⟩

/-- Which lines the sudo rule looks at, and the user it finds. -/
theorem session_texts (l : Line) : (l.source == text "sudo") = decide (l = .sudoOpen) ∧
    (l = .sudoOpen → icontains (l.message cfg) (text "session opened") = true ∧
      icontains (l.message cfg) (text "newuser") = true ∧
        parseSudoUser (l.message cfg) = text "newuser") := by
  cases l with
  | background idx =>
    have hturn : ∀ k < 5, (sources.getD k [] == text "sudo") = false := by decide
    exact ⟨hturn (idx % 5) (Nat.mod_lt idx (by decide)), by simp⟩
  | sudoOpen =>
    have hclosed : icontains
        (text "pam_unix(sudo:session): session opened for user root by newuser(uid=1001)")
          (text "session opened") = true ∧ icontains
        (text "pam_unix(sudo:session): session opened for user root by newuser(uid=1001)")
          (text "newuser") = true ∧ parseSudoUser
        (text "pam_unix(sudo:session): session opened for user root by newuser(uid=1001)") =
          text "newuser" := by decide
    exact ⟨rfl, fun _ => hclosed⟩
  | sshFail | portScan | nginxFail | sshdFail | started => exact ⟨rfl, by simp⟩

end texts

section meaning

variable {cfg : AgentConfig} {l : Line} {ev : LogEvent}

/-- Every line is parsed into an event that says what it says. -/
theorem parse_readAs (cfg : AgentConfig) (clock : Clock) (stamp : Stamp) (l : Line) :
    ∃ ev, parse clock (l.print cfg stamp.text) = some ev ∧ ev.timestamp = readTime clock stamp ∧
      ReadAs cfg l ev := by
  obtain ⟨ev, hparse, htime, hsource, hmessage, hfields⟩ := parse_print cfg clock stamp l
  exact ⟨ev, hparse, htime, hsource, hmessage, extractSrcIp_line cfg l hmessage hfields⟩

/-- The node id that the agent stamps changes nothing. -/
theorem ReadAs.stamp (h : ReadAs cfg l ev) (nodeId : Bytes) :
    ReadAs cfg l (stampEvent nodeId ev) := ⟨h.source, h.message, h.address⟩

/-- An address rule goes for the address of the lines it takes. -/
theorem addressed (h : ReadAs cfg l ev) {p : Bool} (hp : p = true → l.address cfg ≠ []) :
    (if p then if (extractSrcIp ev).isEmpty then none else some (extractSrcIp ev) else none) =
      if p then some (l.address cfg) else none := by
  cases p with
  | false => rfl
  | true =>
    have hne : (l.address cfg).isEmpty = false := by simpa using hp rfl
    rw [h.address, hne]
    rfl

/-- The rules look for the same in an event as in the line. -/
theorem ruleSubject_line (h : ReadAs cfg l ev) (rule : Rule) :
    ruleSubject rule ev = lineSubject cfg rule l := by
  obtain ⟨-, hssh, hscan, hmulti⟩ := attackers_differ cfg
  cases rule with
  | sshBruteForce =>
    have hform : SshBruteForceRule.subject ev =
        if isLogin l then if (extractSrcIp ev).isEmpty then none else some (extractSrcIp ev)
        else none := by
      rw [SshBruteForceRule.subject, h.source, h.message, ← @login_texts cfg l]
      cases SshBruteForceRule.isSource l.source <;>
        cases SshBruteForceRule.isFailure (l.message cfg) <;> rfl
    rw [ruleSubject, hform, addressed h]
    · cases l <;> rfl
    · cases l <;> simp [isLogin, Line.address, hssh]
  | portScan =>
    have hform : PortScanRule.subject ev =
        if (port? l).isSome then
          if (extractSrcIp ev).isEmpty then none else some (extractSrcIp ev)
        else none := by
      obtain ⟨hreject, hdpt, -⟩ := @packet_texts cfg l
      rw [PortScanRule.subject, h.source, h.message, bne]
      cases hkernel : l.source == text "kernel" with
      | false =>
        rw [hkernel, Bool.false_and] at hdpt
        rw [← hdpt]
        rfl
      | true =>
        rw [hkernel, Bool.true_and] at hreject hdpt
        rw [hreject, hdpt]
        cases (port? l).isSome <;> rfl
    rw [ruleSubject, hform, addressed h]
    · cases l <;> rfl
    · cases l <;> simp [port?, Line.address, hscan]
  | privEsc =>
    obtain ⟨hsession, huser⟩ := @session_texts cfg l
    rw [ruleSubject, PrivEscRule.subject, h.source, h.message, bne]
    by_cases hl : l = .sudoOpen
    · obtain ⟨hopened, -, hname⟩ := huser hl
      rw [hsession, decide_eq_true hl, hopened, hname, hl]
      rfl
    · rw [hsession, decide_eq_false hl]
      cases l <;> first | rfl | exact absurd rfl hl
  | multiServiceAuth =>
    have hform : MultiServiceAuthRule.subject ev =
        if isFailure l then if (extractSrcIp ev).isEmpty then none else some (extractSrcIp ev)
        else none := by
      rw [MultiServiceAuthRule.subject, h.message, failure_texts]
      cases isFailure l <;> rfl
    rw [ruleSubject, hform, addressed h]
    · cases l <;> rfl
    · cases l <;> simp [isFailure, Line.address, hssh, hmulti]

theorem not_stale (window now time : ℤ) :
    (!decide (time < now - seconds window)) = recent window now time := by
  rw [recent, ← decide_not, decide_eq_decide, not_lt]

/-- The SSH rule counts the failed logins in its window. -/
theorem ssh_counts (h : ReadAs cfg l ev) (window now : ℤ) :
    decide (extractSrcIp ev = cfg.atkSsh ∧
      SshBruteForceRule.counts (now - seconds window) ev = true) =
        (isLogin l && recent window now ev.timestamp) := by
  have hlogin : (SshBruteForceRule.isSource ev.logSource &&
      SshBruteForceRule.isFailure ev.message) = isLogin l := by
    rw [h.source, h.message, login_texts]
  have hcounts : SshBruteForceRule.counts (now - seconds window) ev =
      (isLogin l && recent window now ev.timestamp) := by
    rw [SshBruteForceRule.counts, not_stale, ← hlogin, Bool.and_assoc, Bool.and_assoc,
      Bool.and_comm (recent _ _ _)]
  rw [hcounts, Bool.decide_and, Bool.decide_eq_true]
  cases l with
  | sshFail i => simp [h.address, Line.address]
  | _ => simp [isLogin]

/-- The port-scan rule looks at the rejected packets in its window. -/
theorem scan_counts (h : ReadAs cfg l ev) (window now : ℤ) :
    decide (extractSrcIp ev = cfg.atkScan ∧
      PortScanRule.counts (now - seconds window) ev = true) =
        ((port? l).isSome && recent window now ev.timestamp) := by
  have hcounts : PortScanRule.counts (now - seconds window) ev =
      ((port? l).isSome && recent window now ev.timestamp) := by
    rw [PortScanRule.counts, not_stale, h.source, h.message, Bool.and_assoc,
      (@packet_texts cfg l).2.1, Bool.and_comm]
  rw [hcounts, Bool.decide_and, Bool.decide_eq_true]
  cases l with
  | portScan i => simp [h.address, Line.address]
  | _ => simp [port?]

/-- The rule for several services looks at the failures in its window. -/
theorem multi_counts (h : ReadAs cfg l ev) (window now : ℤ) :
    MultiServiceAuthRule.counts (now - seconds window) ev =
      (isFailure l && recent window now ev.timestamp) := by
  rw [MultiServiceAuthRule.counts, not_stale, h.message, failure_texts, Bool.and_comm]

/-- The sudo rule looks for sessions of the new user in its history. -/
theorem session_counts (h : ReadAs cfg l ev) (event : LogEvent) (rules : RuleConfig) :
    decide (ev.logSource = text "sudo" ∧
      PrivEscRule.matchesUser event rules (text "newuser") ev = true) =
        (l = .sudoOpen && event.timestamp - hours rules.privHistoryHours ≤ ev.timestamp &&
          ev.timestamp < event.timestamp : Bool) := by
  obtain ⟨hsession, htexts⟩ := @session_texts cfg l
  rw [beq_eq_decide] at hsession
  rw [Bool.decide_and, Bool.decide_eq_true, h.source, hsession, PrivEscRule.matchesUser,
    PrivEscRule.cutoff, h.message]
  by_cases hl : l = .sudoOpen
  · obtain ⟨hopened, hname, -⟩ := htexts hl
    rw [decide_eq_true hl, hopened, hname]
    simp only [Bool.true_and, Bool.and_true, ← decide_not, not_lt, not_le]
  · rw [decide_eq_false hl]
    rfl

end meaning

section history

variable (sim : Simulation) (n : ℕ)

/-- The parser accepts every line of the log. -/
theorem event_readAs : sim.time n = readTime (sim.clocks n) (sim.stamps n) ∧
    ReadAs sim.cfg (sim.lines n) (sim.event n) := by
  obtain ⟨ev, hparse, htime, hread⟩ := parse_readAs sim.cfg (sim.clocks n) (sim.stamps n)
    (sim.lines n)
  rw [Simulation.time, Simulation.event, hparse]
  exact ⟨htime, hread⟩

theorem arrival_readAs : ReadAs sim.cfg (sim.lines n) (sim.feed.arrival n) :=
  (event_readAs sim n).2.stamp sim.nodeId

/-- The lines of the last day in the ring, by their places in the log. -/
def places : List ℕ :=
  ((List.range (n + 1)).rtake ringCapacity).filter fun k => sim.time n - hours 24 ≤ sim.time k

theorem past_eq : sim.past n = (places sim n).map fun k => (sim.lines k, sim.time k) := by
  rw [Simulation.past, Simulation.retained, map_rtake, List.filter_map]
  rfl

/-- The events that the rules look back at are those of these lines. -/
theorem lastDay_eq : lastDay (sim.feed.arrival n) (sim.feed.snapshotAt n) =
    (places sim n).map sim.feed.arrival := by
  rw [snapshotAt_eq_retained, Feed.retained, map_rtake, lastDay, List.filter_map]
  rfl

/-- The count of the SSH rule. -/
theorem count_line : naiveCount (sim.feed.arrival n) (lastDay (sim.feed.arrival n)
    (sim.feed.snapshotAt n)) sim.rules sim.cfg.atkSsh = 1 + ((sim.past n).countP fun x =>
      isLogin x.1 && recent sim.rules.sshWindowSeconds (sim.time n) x.2 : ℕ) := by
  rw [naiveCount, lastDay_eq, past_eq, List.countP_map, List.countP_map]
  congr 2
  refine List.countP_congr fun k _ => ?_
  have hcount := ssh_counts (arrival_readAs sim k) sim.rules.sshWindowSeconds (sim.time n)
  exact iff_of_eq (congrArg (· = true) hcount)

/-- The number of a port of the scan. -/
def portNumber (i : Fin 60) : ℤ := 1024 + (i : ℕ)

theorem portNumber_injective : Function.Injective portNumber := by
  intro i j h
  unfold portNumber at h
  exact Fin.ext (by omega)

theorem mem_portsHit {past : List (Line × ℤ)} {window now : ℤ} {i : Fin 60} :
    i ∈ portsHit past window now ↔
      ∃ x ∈ past, port? x.1 = some i ∧ recent window now x.2 = true := by
  rw [portsHit, List.mem_toFinset, List.mem_filterMap]
  refine exists_congr fun x => and_congr_right fun _ => ?_
  cases recent window now x.2 <;> simp

/-- The port-scan rule has the ports of the rejected packets. -/
theorem ports_line {i : Fin 60} (hline : sim.lines n = .portScan i) :
    naivePorts (sim.feed.arrival n) (lastDay (sim.feed.arrival n) (sim.feed.snapshotAt n)) sim.rules
        sim.cfg.atkScan =
      (insert i (portsHit (sim.past n) sim.rules.scanWindowSeconds (sim.time n))).image
        portNumber := by
  have hport : ∀ k j, port? (sim.lines k) = some j →
      parseDpt (sim.feed.arrival k).message = portNumber j := by
    intro k j hj
    rw [(arrival_readAs sim k).message]
    exact (packet_texts _).2.2 j hj
  have hpos : ∀ j, 0 < portNumber j := by
    intro j
    unfold portNumber
    omega
  have hown : PortScanRule.insertPort ∅ (sim.feed.arrival n).message = {portNumber i} := by
    rw [PortScanRule.insertPort, hport n i (by rw [hline]; rfl), if_pos (hpos i)]
    rfl
  have hcounts : ∀ k, decide (extractSrcIp (sim.feed.arrival k) = sim.cfg.atkScan ∧
      PortScanRule.counts (PortScanRule.cutoff (sim.feed.arrival n) sim.rules)
        (sim.feed.arrival k) = true) = ((port? (sim.lines k)).isSome &&
          recent sim.rules.scanWindowSeconds (sim.time n) (sim.time k)) := fun k =>
    scan_counts (arrival_readAs sim k) sim.rules.scanWindowSeconds (sim.time n)
  rw [Finset.image_insert, ← Finset.singleton_union, naivePorts, hown, lastDay_eq]
  congr 1
  ext p
  simp only [Finset.mem_filter, List.mem_toFinset, List.mem_map, List.mem_filter, Finset.mem_image,
    mem_portsHit, past_eq]
  constructor
  · rintro ⟨⟨ev, ⟨⟨k, hk, rfl⟩, hev⟩, rfl⟩, -⟩
    rw [hcounts, Bool.and_eq_true] at hev
    obtain ⟨j, hj⟩ := Option.isSome_iff_exists.mp hev.1
    exact ⟨j, ⟨_, ⟨k, hk, rfl⟩, hj, hev.2⟩, (hport k j hj).symm⟩
  · rintro ⟨j, ⟨_, ⟨k, hk, rfl⟩, hj, hrecent⟩, rfl⟩
    dsimp only at hj hrecent
    refine ⟨⟨sim.feed.arrival k, ⟨⟨k, hk, rfl⟩, ?_⟩, hport k j hj⟩, hpos j⟩
    rw [hcounts, hj, hrecent]
    rfl

/-- The services that the rule for several services has. -/
theorem services_line {s : Bytes} :
    s ∈ naiveServices (sim.feed.arrival n) (lastDay (sim.feed.arrival n) (sim.feed.snapshotAt n))
        sim.rules ((sim.lines n).address sim.cfg) ↔
      s = (sim.lines n).source ∨ ∃ x ∈ sim.past n, isFailure x.1 = true ∧
        x.1.address sim.cfg = (sim.lines n).address sim.cfg ∧
          recent sim.rules.multiWindowSeconds (sim.time n) x.2 = true ∧ s = x.1.source := by
  have hnamed : ∀ l : Line, l.source ≠ [] := fun l => (source_plain l).1.1
  have hown : MultiServiceAuthRule.insertService ∅ (sim.feed.arrival n).logSource =
      {(sim.lines n).source} := by
    rw [MultiServiceAuthRule.insertService, (arrival_readAs sim n).source]
    have hne : (sim.lines n).source.isEmpty = false := by simpa using hnamed (sim.lines n)
    rw [hne]
    rfl
  have hcounts : ∀ k, MultiServiceAuthRule.counts
      (MultiServiceAuthRule.cutoff (sim.feed.arrival n) sim.rules) (sim.feed.arrival k) =
        (isFailure (sim.lines k) && recent sim.rules.multiWindowSeconds (sim.time n) (sim.time k)) :=
    fun k => multi_counts (arrival_readAs sim k) sim.rules.multiWindowSeconds (sim.time n)
  rw [naiveServices, hown, lastDay_eq, Finset.mem_union, Finset.mem_singleton]
  refine or_congr_right ?_
  simp only [Finset.mem_filter, List.mem_toFinset, List.mem_map, List.mem_filter, past_eq,
    decide_eq_true_eq]
  constructor
  · rintro ⟨⟨ev, ⟨⟨k, hk, rfl⟩, haddress, hev⟩, rfl⟩, -⟩
    rw [hcounts, Bool.and_eq_true] at hev
    rw [(arrival_readAs sim k).address] at haddress
    exact ⟨_, ⟨k, hk, rfl⟩, hev.1, haddress, hev.2, (arrival_readAs sim k).source⟩
  · rintro ⟨_, ⟨k, hk, rfl⟩, hfailure, haddress, hrecent, rfl⟩
    dsimp only at hfailure haddress hrecent
    refine ⟨⟨sim.feed.arrival k, ⟨⟨k, hk, rfl⟩, ?_, ?_⟩, (arrival_readAs sim k).source⟩, hnamed _⟩
    · rw [(arrival_readAs sim k).address, haddress]
    · rw [hcounts, hfailure, hrecent]
      rfl

/-- The sudo rule finds a session of the new user exactly if a line tells one. -/
theorem session_line : naiveSeenBefore (sim.feed.arrival n) (lastDay (sim.feed.arrival n)
    (sim.feed.snapshotAt n)) sim.rules (text "newuser") = (sim.past n).any fun x =>
      x.1 = .sudoOpen && sim.time n - hours sim.rules.privHistoryHours ≤ x.2 &&
        x.2 < sim.time n := by
  rw [naiveSeenBefore, lastDay_eq, past_eq, List.any_map, List.any_map]
  congr 1
  funext k
  exact session_counts (arrival_readAs sim k) (sim.feed.arrival n) sim.rules

end history

section returned

variable (sim : Simulation) (n : ℕ)

/-- The failures from an address are those of its attacker. -/
theorem failures_from (cfg : AgentConfig) (l : Line) :
    (isFailure l = true ∧ l.address cfg = cfg.atkSsh → l.source = text "sshd") ∧
      (isFailure l = true ∧ l.address cfg = cfg.atkMulti ↔ l = .nginxFail ∨ l = .sshdFail) := by
  obtain ⟨⟨-, hdiffer, -⟩, -⟩ := attackers_differ cfg
  cases l with
  | nginxFail => exact ⟨fun h => absurd h.2 hdiffer.symm, by simp [isFailure, Line.address]⟩
  | sshFail i => exact ⟨fun _ => rfl, by simp [isFailure, Line.address, hdiffer]⟩
  | sshdFail => exact ⟨fun _ => rfl, by simp [isFailure, Line.address]⟩
  | background | portScan | sudoOpen | started => simp [isFailure]

/-- Failed logins are failures of one service only. -/
theorem card_services_login {i : Fin 3} (hline : sim.lines n = .sshFail i) :
    (naiveServices (sim.feed.arrival n) (lastDay (sim.feed.arrival n) (sim.feed.snapshotAt n))
      sim.rules sim.cfg.atkSsh).card = 1 := by
  have hmem := @services_line sim n
  rw [hline] at hmem
  rw [Finset.card_eq_one]
  refine ⟨text "sshd", Finset.eq_singleton_iff_unique_mem.mpr ⟨hmem.mpr (.inl rfl), fun s hs => ?_⟩⟩
  rcases hmem.mp hs with rfl | ⟨x, -, hfailure, haddress, -, rfl⟩
  · rfl
  · exact (failures_from sim.cfg x.1).1 ⟨hfailure, haddress⟩

/-- A set with one element, and another one if a condition holds. -/
theorem card_of_mem_iff {S : Finset Bytes} {own other : Bytes} {b : Bool} (hne : own ≠ other)
    (h : ∀ s, s ∈ S ↔ s = own ∨ b = true ∧ s = other) : S.card = if b then 2 else 1 := by
  cases b with
  | false =>
    have hone : S = {own} := by
      ext s
      simp [h]
    rw [hone]
    rfl
  | true =>
    have htwo : S = {own, other} := by
      ext s
      simp [h]
    rw [htwo, Finset.card_pair hne]
    rfl

/-- The failures of the two services count as two once both are there. -/
theorem card_services_pair {other : Line}
    (hpair : sim.lines n = .nginxFail ∧ other = .sshdFail ∨
      sim.lines n = .sshdFail ∧ other = .nginxFail) :
    (naiveServices (sim.feed.arrival n) (lastDay (sim.feed.arrival n) (sim.feed.snapshotAt n))
      sim.rules sim.cfg.atkMulti).card =
        if (sim.past n).any fun x =>
          x.1 = other && recent sim.rules.multiWindowSeconds (sim.time n) x.2 then 2 else 1 := by
  have haddress : (sim.lines n).address sim.cfg = sim.cfg.atkMulti := by
    rcases hpair with ⟨hline, -⟩ | ⟨hline, -⟩ <;> rw [hline] <;> rfl
  have hne : (sim.lines n).source ≠ other.source := by
    rcases hpair with ⟨hline, rfl⟩ | ⟨hline, rfl⟩ <;> rw [hline] <;> decide
  have hboth : ∀ l : Line, l = .nginxFail ∨ l = .sshdFail ↔ l = sim.lines n ∨ l = other := by
    intro l
    rcases hpair with ⟨hline, rfl⟩ | ⟨hline, rfl⟩ <;> rw [hline]
    exact or_comm
  refine card_of_mem_iff hne fun s => ?_
  have hmem := @services_line sim n s
  rw [haddress] at hmem
  rw [hmem, List.any_eq_true]
  constructor
  · rintro (rfl | ⟨x, hx, hfailure, hfrom, hrecent, rfl⟩)
    · exact .inl rfl
    · rcases (hboth x.1).mp ((failures_from sim.cfg x.1).2.mp ⟨hfailure, hfrom⟩) with hown | hother
      · exact .inl (by rw [hown])
      · exact .inr ⟨⟨x, hx, by simp [hother, hrecent]⟩, by rw [hother]⟩
  · rintro (rfl | ⟨⟨x, hx, hkind⟩, rfl⟩)
    · exact .inl rfl
    · simp only [Bool.and_eq_true, decide_eq_true_eq] at hkind
      obtain ⟨hfailure, hfrom⟩ := (failures_from sim.cfg x.1).2.mpr
        ((hboth x.1).mpr (.inr hkind.1))
      exact .inr ⟨x, hx, hfailure, hfrom, hkind.2, by rw [hkind.1]⟩

/-- A rule that finds its subject in a line decides as on the lines. -/
theorem reached_line {rule : Rule} {subject : Bytes}
    (hsubject : lineSubject sim.cfg rule (sim.lines n) = some subject) :
    reached (sim.feed.arrival n) (buildIndex (sim.feed.snapshotAt n) (sim.feed.arrival n).timestamp)
      sim.rules subject rule = decided sim.rules (sim.past n) (sim.time n) (sim.lines n) rule := by
  cases rule with
  | sshBruteForce =>
    cases hline : sim.lines n with
    | sshFail i =>
      rw [hline] at hsubject
      cases hsubject
      rw [reached, count_lastDay, count_line]
      rfl
    | _ =>
      rw [hline] at hsubject
      cases hsubject
  | portScan =>
    cases hline : sim.lines n with
    | portScan i =>
      rw [hline] at hsubject
      cases hsubject
      rw [reached, portsSeen_lastDay, ports_line sim n hline,
        Finset.card_image_of_injective _ portNumber_injective]
      rfl
    | _ =>
      rw [hline] at hsubject
      cases hsubject
  | privEsc =>
    cases hline : sim.lines n with
    | sudoOpen =>
      rw [hline] at hsubject
      cases hsubject
      rw [reached, seenBefore_lastDay, session_line]
      rfl
    | _ =>
      rw [hline] at hsubject
      cases hsubject
  | multiServiceAuth =>
    cases hline : sim.lines n with
    | sshFail i =>
      rw [hline] at hsubject
      cases hsubject
      rw [reached, servicesHit_lastDay, card_services_login sim n hline]
      rfl
    | nginxFail =>
      rw [hline] at hsubject
      cases hsubject
      rw [reached, servicesHit_lastDay, card_services_pair sim n (.inl ⟨hline, rfl⟩), Nat.cast_ite]
      rfl
    | sshdFail =>
      rw [hline] at hsubject
      cases hsubject
      rw [reached, servicesHit_lastDay, card_services_pair sim n (.inr ⟨hline, rfl⟩), Nat.cast_ite]
      rfl
    | _ =>
      rw [hline] at hsubject
      cases hsubject

/-- An alert is about the subject it is drafted for. -/
theorem alertSubject_draft (event : LogEvent) (index : EventIndex) (rules : RuleConfig)
    (subject id : Bytes) (rule : Rule) :
    alertSubject rule (draft event index rules subject id rule) = some subject := by
  cases rule with
  | privEsc => simp [alertSubject, draft, PrivEscRule.alert]
  | sshBruteForce | portScan | multiServiceAuth =>
    exact lookup_draft event index rules subject id (by decide)

/-- What an agent returns on a line of the simulator's log. -/
theorem exists_returned (rule : Rule) : ∃ id, (sim.feed.verdictAt n rule).returned =
    (lineSubject sim.cfg rule (sim.lines n)).bind fun subject =>
      if decided sim.rules (sim.past n) (sim.time n) (sim.lines n) rule then
        some (draft (sim.feed.arrival n)
          (buildIndex (sim.feed.snapshotAt n) (sim.feed.arrival n).timestamp) sim.rules subject id
            rule)
      else none := by
  obtain ⟨engine, he, hc⟩ := exists_engine sim.feed n
  obtain ⟨drawn, hev⟩ := (process_turn engine (sim.feed.stateAt n).counter (sim.feed.arrival n)
    (sim.feed.snapshotAt n) (sim.feed.readings n) rule).1
  have hverdict : (sim.feed.verdictAt n rule).returned = (rule.evaluate (sim.feed.arrival n)
      (sim.feed.snapshotAt n) (buildIndex (sim.feed.snapshotAt n) (sim.feed.arrival n).timestamp)
        engine.cfg drawn).1 := by
    simp only [Feed.verdictAt, he]
    exact hev.symm
  have hconfig : sim.feed.cfg = sim.rules := rfl
  refine ⟨(nextId drawn).1, ?_⟩
  rw [hverdict, evaluate_eq, ruleSubject_line (arrival_readAs sim n), hc, hconfig]
  cases hsubject : lineSubject sim.cfg rule (sim.lines n) with
  | none => rfl
  | some subject => rw [Option.bind_some, Option.bind_some, reached_line sim n hsubject]

/-- A rule that looks for nothing in a line raises no alert on it. -/
theorem decided_eq_false {cfg : AgentConfig} {l : Line} {rule : Rule}
    (h : lineSubject cfg rule l = none) (rules : RuleConfig) (past : List (Line × ℤ)) (now : ℤ) :
    decided rules past now l rule = false := by
  cases rule <;> cases l <;> first | rfl | cases h

/-- An alert is about what the line is about. -/
theorem returned_subject {rule : Rule} {subject : Bytes}
    (h : lineSubject sim.cfg rule (sim.lines n) = some subject) :
    (sim.feed.verdictAt n rule).returned.map (alertSubject rule) =
      if decided sim.rules (sim.past n) (sim.time n) (sim.lines n) rule then some (some subject)
      else none := by
  obtain ⟨id, hreturned⟩ := exists_returned sim n rule
  rw [hreturned, h, Option.bind_some]
  split
  · rw [Option.map_some, alertSubject_draft]
  · rfl

/-- What an agent returns on a line of the simulator's log is what is decided
on the line, and about what the line is about. -/
theorem returned_line (rule : Rule) :
    (sim.feed.verdictAt n rule).returned.map (alertSubject rule) =
      if decided sim.rules (sim.past n) (sim.time n) (sim.lines n) rule then
        some (lineSubject sim.cfg rule (sim.lines n))
      else none := by
  cases hsubject : lineSubject sim.cfg rule (sim.lines n) with
  | none =>
    obtain ⟨id, hreturned⟩ := exists_returned sim n rule
    rw [hreturned, hsubject, decided_eq_false hsubject]
    rfl
  | some subject => exact returned_subject sim n hsubject

end returned

end Dlads.SimulatedAttacks
