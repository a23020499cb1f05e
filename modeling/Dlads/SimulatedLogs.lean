import Dlads.KeyValueWriting
import Dlads.SourceAttribution
import Dlads.StepMachine
import Dlads.SyslogDecoding

/-!
# The simulator's logs

`LogSimulator` appends background lines to a log file, and in its attack phases
lines about failed logins, rejected packets, failures of two services and a
first sudo session. A line is what a generator is called with; its text is what
the generator prints. Whatever the parser's clock, it reads the text back into
source, message and address of the line.
-/

namespace Dlads.SimulatedLogs

open ByteText StringMaps Records TextSearch LineParsing KeyValueScan KeyValueWriting SyslogLines
open SyslogDecoding IndexedHistory SourceAttribution StepMachine

section generators

variable (ts host : Bytes)

/-- `gen_ssh_fail`, behind its timestamp. -/
def genSshFail (srcIp : Bytes) (pid : ℕ) : Bytes :=
  ts ++ text " " ++ host ++ text " sshd[" ++ decNat pid ++
    text "]: Failed password for root from " ++ srcIp ++ text " port 54321 ssh2"

/-- `gen_port_scan`. -/
def genPortScan (srcIp : Bytes) (dport : ℕ) : Bytes :=
  ts ++ text " " ++ host ++ text " kernel: iptables REJECT IN=eth0 SRC=" ++ srcIp ++
    text " DST=10.0.0.1 DPT=" ++ decNat dport

/-- `gen_sudo_open`. -/
def genSudoOpen (username : Bytes) : Bytes :=
  ts ++ text " " ++ host ++
    text " sudo[1234]: pam_unix(sudo:session): session opened for user root by " ++ username ++
      text "(uid=1001)"

/-- `gen_auth_fail`. -/
def genAuthFail (srcIp service : Bytes) : Bytes :=
  ts ++ text " " ++ host ++ text " " ++ service ++
    text "[9999]: authentication failure from " ++ srcIp

/-- The array `sources`. -/
def sources : List Bytes :=
  [text "cron", text "systemd", text "NetworkManager", text "kernel", text "dbus"]

/-- The array `msgs`. -/
def msgs : List Bytes :=
  [text "Started Session.", text "Reached target Basic System.",
    text "pam_unix(cron:session): session opened for user root by (uid=0)",
    text "NET: Registered protocol family 10", text "New connection registered"]

/-- `gen_background`. -/
def genBackground (idx : ℕ) : Bytes :=
  let src := sources.getD (idx % 5) []
  let msg := msgs.getD (idx % 5) []
  ts ++ text " " ++ host ++ text " " ++ src ++ text "[" ++ decNat (1000 + idx) ++ text "]: " ++ msg

end generators

/-- An entry of the simulator's configuration. -/
structure AgentConfig where
  /-- The host name in the logs. -/
  host : Bytes
  /-- The front of the attackers' addresses. -/
  attackIpBase : Bytes
  /-- Milliseconds between writes. -/
  intervalMs : ℕ
  /-- The host name is a word. -/
  host_word : IsWord host
  /-- Addresses consist of address bytes. -/
  base_chars : ∀ c ∈ attackIpBase, isIpChar c = true
  /-- There is some time between writes. -/
  interval_pos : 0 < intervalMs

namespace AgentConfig

variable (cfg : AgentConfig)

/-- The address of the failed logins. -/
def atkSsh : Bytes := cfg.attackIpBase ++ text "1"

/-- The address of the port scan. -/
def atkScan : Bytes := cfg.attackIpBase ++ text "2"

/-- The address of the failures of two services. -/
def atkMulti : Bytes := cfg.attackIpBase ++ text "3"

end AgentConfig

/-- A line of the log. -/
inductive Line
  /-- Background noise. -/
  | background (idx : ℕ)
  /-- One of three failed logins. -/
  | sshFail (i : Fin 3)
  /-- A rejected packet to one of sixty ports. -/
  | portScan (i : Fin 60)
  /-- A failure of the web server. -/
  | nginxFail
  /-- A failure of the ssh daemon. -/
  | sshdFail
  /-- The sudo session of the new user. -/
  | sudoOpen
  /-- The line that `start` puts first. -/
  | started
  deriving DecidableEq

namespace Line

variable (cfg : AgentConfig)

/-- The text of a line, as its generator prints it. -/
def print (ts : Bytes) : Line → Bytes
  | background idx => genBackground ts cfg.host idx
  | sshFail i => genSshFail ts cfg.host cfg.atkSsh (2200 + i)
  | portScan i => genPortScan ts cfg.host cfg.atkScan (1024 + i)
  | nginxFail => genAuthFail ts cfg.host cfg.atkMulti (text "nginx")
  | sshdFail => genAuthFail ts cfg.host cfg.atkMulti (text "sshd")
  | sudoOpen => genSudoOpen ts cfg.host (text "newuser")
  | started => ts ++ text " " ++ cfg.host ++ text " syslog: DLADS simulator started"

/-- Who logs the line. -/
def source : Line → Bytes
  | background idx => sources.getD (idx % 5) []
  | sshFail _ => text "sshd"
  | portScan _ => text "kernel"
  | nginxFail => text "nginx"
  | sshdFail => text "sshd"
  | sudoOpen => text "sudo"
  | started => text "syslog"

/-- The process id in the line. -/
def pid : Line → Option ℕ
  | background idx => some (1000 + idx)
  | sshFail i => some (2200 + i)
  | portScan _ => none
  | nginxFail => some 9999
  | sshdFail => some 9999
  | sudoOpen => some 1234
  | started => none

/-- What the line says. -/
def message : Line → Bytes
  | background idx => msgs.getD (idx % 5) []
  | sshFail _ => text "Failed password for root from " ++ (cfg.atkSsh ++ text " port 54321 ssh2")
  | portScan i => text "iptables REJECT IN=eth0 SRC=" ++
      (cfg.atkScan ++ (text " DST=10.0.0.1 DPT=" ++ decNat (1024 + i)))
  | nginxFail => text "authentication failure from " ++ cfg.atkMulti
  | sshdFail => text "authentication failure from " ++ cfg.atkMulti
  | sudoOpen => text "pam_unix(sudo:session): session opened for user root by newuser(uid=1001)"
  | started => text "DLADS simulator started"

/-- The address the line is about, if any. -/
def address : Line → Bytes
  | sshFail _ => cfg.atkSsh
  | portScan _ => cfg.atkScan
  | nginxFail => cfg.atkMulti
  | sshdFail => cfg.atkMulti
  | _ => []

/-- The field in front of the message. -/
def procField (l : Line) : Bytes :=
  match l.pid with
  | some pid => l.source ++ 91 :: (decNat pid ++ [93])
  | none => l.source

end Line

section parsing

variable (cfg : AgentConfig)

/-- The text of a line, field by field. -/
theorem print_eq (stamp : Stamp) (l : Line) :
    l.print cfg stamp.text = syslogLine stamp cfg.host l.procField (l.message cfg) := by
  have hblank : text " " = [32] := by decide
  cases l with
  | background idx =>
    have hopen : text "[" = [91] := by decide
    have hclose : text "]: " = [93, 58, 32] := by decide
    simp [Line.print, genBackground, syslogLine, Line.procField, Line.pid, Line.source,
      Line.message, hblank, hopen, hclose]
  | sshFail i =>
    have hopen : text " sshd[" = 32 :: (text "sshd" ++ [91]) := by decide
    have hclose : text "]: Failed password for root from " =
        93 :: 58 :: 32 :: text "Failed password for root from " := by decide
    simp [Line.print, genSshFail, syslogLine, Line.procField, Line.pid, Line.source, Line.message,
      hblank, hopen, hclose]
  | portScan i =>
    have hopen : text " kernel: iptables REJECT IN=eth0 SRC=" =
        32 :: (text "kernel" ++ 58 :: 32 :: text "iptables REJECT IN=eth0 SRC=") := by decide
    simp [Line.print, genPortScan, syslogLine, Line.procField, Line.pid, Line.source, Line.message,
      hblank, hopen]
  | nginxFail =>
    have hopen : text "[9999]: authentication failure from " =
        91 :: (decNat 9999 ++ 93 :: 58 :: 32 :: text "authentication failure from ") := by decide
    simp [Line.print, genAuthFail, syslogLine, Line.procField, Line.pid, Line.source, Line.message,
      hblank, hopen]
  | sshdFail =>
    have hopen : text "[9999]: authentication failure from " =
        91 :: (decNat 9999 ++ 93 :: 58 :: 32 :: text "authentication failure from ") := by decide
    simp [Line.print, genAuthFail, syslogLine, Line.procField, Line.pid, Line.source, Line.message,
      hblank, hopen]
  | sudoOpen =>
    have hopen : text " sudo[1234]: pam_unix(sudo:session): session opened for user root by " =
        32 :: (text "sudo" ++ 91 :: (decNat 1234 ++ 93 :: 58 :: 32 ::
          text "pam_unix(sudo:session): session opened for user root by ")) := by decide
    have hmessage : text "pam_unix(sudo:session): session opened for user root by newuser(uid=1001)" =
        text "pam_unix(sudo:session): session opened for user root by " ++
          (text "newuser" ++ text "(uid=1001)") := by decide
    simp [Line.print, genSudoOpen, syslogLine, Line.procField, Line.pid, Line.source, Line.message,
      hblank, hopen, hmessage]
  | started =>
    have hopen : text " syslog: DLADS simulator started" =
        32 :: (text "syslog" ++ 58 :: 32 :: text "DLADS simulator started") := by decide
    simp [Line.print, syslogLine, Line.procField, Line.pid, Line.source, Line.message, hblank, hopen]

/-- The name of who logs is a word without brackets and colons. -/
theorem source_plain (l : Line) :
    IsWord l.source ∧ 91 ∉ l.source ∧ 58 ∉ l.source := by
  have hplain : ∀ s : Bytes, s ≠ [] → s.all (!isSpace ·) = true → 91 ∉ s ∧ 58 ∉ s →
      IsWord s ∧ 91 ∉ s ∧ 58 ∉ s := fun s hne hall h => ⟨isWord_of_all hne hall, h⟩
  cases l with
  | background idx =>
    have hturn : ∀ k < 5, sources.getD k [] ≠ [] ∧
        (sources.getD k []).all (!isSpace ·) = true ∧ 91 ∉ sources.getD k [] ∧
          58 ∉ sources.getD k [] := by decide
    obtain ⟨hne, hall, hno⟩ := hturn (idx % 5) (Nat.mod_lt idx (by decide))
    exact hplain _ hne hall hno
  | sshFail | sshdFail => exact hplain (text "sshd") (by decide) (by decide) (by decide)
  | portScan => exact hplain (text "kernel") (by decide) (by decide) (by decide)
  | nginxFail => exact hplain (text "nginx") (by decide) (by decide) (by decide)
  | sudoOpen => exact hplain (text "sudo") (by decide) (by decide) (by decide)
  | started => exact hplain (text "syslog") (by decide) (by decide) (by decide)

/-- The field in front of the message is a word without a colon. -/
theorem procField_plain (l : Line) : IsWord l.procField ∧ 58 ∉ l.procField := by
  obtain ⟨hword, -, hcolon⟩ := source_plain l
  unfold Line.procField
  cases l.pid with
  | none => exact ⟨hword, hcolon⟩
  | some pid =>
    dsimp only
    have hdigits : ∀ c ∈ decNat pid, isSpace c = false := fun c hc =>
      not_isSpace_of_isDigit (isDigit_of_mem_decNat hc)
    have hnot := not_mem_decNat (c := 58) (by decide) pid
    refine ⟨⟨by simp, fun c hc => ?_⟩, by simp [hcolon, hnot]⟩
    simp only [List.mem_append, List.mem_cons, List.not_mem_nil, or_false] at hc
    rcases hc with hc | rfl | hc | rfl
    · exact hword.2 c hc
    · decide
    · exact hdigits c hc
    · decide

/-- The source is what stands in front of the bracket, and the time stays. -/
theorem fillProcess_procField (l : Line) (ev : LogEvent) :
    (fillProcess l.procField ev).logSource = l.source ∧
      (fillProcess l.procField ev).timestamp = ev.timestamp := by
  obtain ⟨-, hopen, -⟩ := source_plain l
  unfold Line.procField
  cases l.pid with
  | none =>
    rw [fillProcess_plain hopen]
    exact ⟨rfl, rfl⟩
  | some pid =>
    have hfind : find (text "[") (l.source ++ 91 :: (decNat pid ++ [93])) =
        some l.source.length := find_byte hopen _
    unfold fillProcess
    rw [hfind]
    dsimp only
    rw [List.take_left]
    split
    · exact ⟨rfl, rfl⟩
    · split <;> exact ⟨rfl, rfl⟩

/-- A message does not end in white space. -/
theorem message_ends (l : Line) :
    ∃ body c, l.message cfg = body ++ [c] ∧ isSpace c = false := by
  have hclosed : ∀ s : Bytes, s ≠ [] → (s.getLast?.all (!isSpace ·)) = true →
      ∃ body c, s = body ++ [c] ∧ isSpace c = false := by
    intro s hne hlast
    refine ⟨s.dropLast, s.getLast hne, (List.dropLast_append_getLast hne).symm, ?_⟩
    rw [List.getLast?_eq_getLast_of_ne_nil hne] at hlast
    simpa using hlast
  have hlast : ∀ (front : Bytes) {s : Bytes},
      (∃ body c, s = body ++ [c] ∧ isSpace c = false) →
        ∃ body c, front ++ s = body ++ [c] ∧ isSpace c = false := by
    rintro front s ⟨body, c, rfl, hc⟩
    exact ⟨front ++ body, c, (List.append_assoc _ _ _).symm, hc⟩
  cases l with
  | background idx =>
    have hturn : ∀ k < 5, msgs.getD k [] ≠ [] ∧
        ((msgs.getD k []).getLast?.all (!isSpace ·)) = true := by decide
    obtain ⟨hne, hend⟩ := hturn (idx % 5) (Nat.mod_lt idx (by decide))
    exact hclosed _ hne hend
  | sshFail i => exact hlast _ (hlast _ (hclosed _ (by decide) (by decide)))
  | portScan i =>
    refine hlast _ (hlast _ (hlast _ (hclosed _ (decNat_ne_nil _) ?_)))
    rw [List.getLast?_eq_getLast_of_ne_nil (decNat_ne_nil _)]
    have hdigit := isDigit_of_mem_decNat (List.getLast_mem (decNat_ne_nil (1024 + i)))
    simp [not_isSpace_of_isDigit hdigit]
  | nginxFail | sshdFail => exact hlast _ (hlast _ (hclosed _ (by decide) (by decide)))
  | sudoOpen =>
    exact hclosed (text "pam_unix(sudo:session): session opened for user root by newuser(uid=1001)")
      (by decide) (by decide)
  | started => exact hclosed (text "DLADS simulator started") (by decide) (by decide)

/-- Every line of the log is parsed into when and who logs it and what it says. -/
theorem parse_print (clock : Clock) (stamp : Stamp) (l : Line) : ∃ ev,
    parse clock (l.print cfg stamp.text) = some ev ∧ ev.timestamp = readTime clock stamp ∧
      ev.logSource = l.source ∧ ev.message = l.message cfg ∧
        ∀ key, ev.fields.lookup key = firstValue key (kvPairs (l.message cfg)) := by
  obtain ⟨hword, hcolon⟩ := procField_plain l
  obtain ⟨body, c, hmessage, hc⟩ := message_ends cfg l
  have hlast : IsWord [c] := ⟨List.cons_ne_nil c [], by simpa using hc⟩
  rw [print_eq, hmessage]
  refine ⟨_, parse_syslogLine_eq clock stamp cfg.host_word hword hcolon hlast,
    (fillProcess_procField l _).2, (fillProcess_procField l _).1, rfl, fun key => ?_⟩
  rw [lookup_extractKv]
  dsimp only
  rw [(fillProcess_frame _ _).2]
  simp

end parsing

section addresses

variable (cfg : AgentConfig)

/-- The attackers' addresses consist of address bytes. -/
theorem attacker_chars : (∀ c ∈ cfg.atkSsh, isIpChar c = true) ∧
    (∀ c ∈ cfg.atkScan, isIpChar c = true) ∧ ∀ c ∈ cfg.atkMulti, isIpChar c = true := by
  have hdigit : ∀ d : Bytes, d.all isIpChar = true → ∀ c ∈ cfg.attackIpBase ++ d,
      isIpChar c = true := by
    intro d hd c hc
    rcases List.mem_append.mp hc with hbase | hc
    · exact cfg.base_chars c hbase
    · exact List.all_eq_true.mp hd c hc
  exact ⟨hdigit _ (by decide), hdigit _ (by decide), hdigit _ (by decide)⟩

/-- The attackers have different addresses, and each has one. -/
theorem attackers_differ : (cfg.atkSsh ≠ cfg.atkScan ∧ cfg.atkSsh ≠ cfg.atkMulti ∧
    cfg.atkScan ≠ cfg.atkMulti) ∧ cfg.atkSsh ≠ [] ∧ cfg.atkScan ≠ [] ∧ cfg.atkMulti ≠ [] := by
  simp only [AgentConfig.atkSsh, AgentConfig.atkScan, AgentConfig.atkMulti, ne_eq,
    List.append_cancel_left_eq, List.append_eq_nil_iff, not_and_or]
  exact ⟨by decide, .inr (by decide), .inr (by decide), .inr (by decide)⟩

theorem not_mem_of_chars {ip : Bytes} (hip : ∀ c ∈ ip, isIpChar c = true) {z : UInt8}
    (hz : isIpChar z = false) : z ∉ ip := by
  intro h
  rw [hip z h] at hz
  cases hz

/-- Without an equals sign the address is looked for behind `from `. -/
theorem extractSrcIp_plain {ev : LogEvent} (hsign : 61 ∉ ev.message)
    (hfields : ∀ key, ev.fields.lookup key = firstValue key (kvPairs ev.message)) :
    extractSrcIp ev = (fromMark ev.message).getD [] := by
  have hsrc : srcMark ev.message = none := by
    rw [srcMark, parseKvField_eq, after_eq_none (by decide) hsign]
    rfl
  rw [extractSrcIp_eq, hfields, hfields, hfields, kvPairs_of_no_sign hsign, hsrc, parseFromIp_eq]
  rfl

/-- The address behind `from ` ends at a blank or with the message. -/
theorem fromMark_address {lead ip rest : Bytes} (hlead : Apart (text "from ") lead)
    (hip : ∀ c ∈ ip, isIpChar c = true) (hrest : Ends rest) :
    fromMark (lead ++ (text "from " ++ (ip ++ rest))) = some ip := by
  have hrun : ∀ c ∈ ip, (c != 32) = true := by
    intro c hc
    have hne : c ≠ 32 := fun h => not_mem_of_chars hip (z := 32) (by decide) (h ▸ hc)
    simpa using hne
  rw [fromMark, after_append_of_apart hlead, after_self_append (by decide), Option.map_some]
  rcases hrest with rfl | ⟨u, rfl⟩
  · rw [List.append_nil, List.takeWhile_eq_self_iff.mpr hrun]
  · rw [takeWhile_run_sep hrun (by decide)]

/-- An address byte can stand in an unquoted value, and no letter beyond `f` is
one. -/
theorem address_byte {c : UInt8} (h : isIpChar c = true) :
    (isValueChar c = true ∧ c ≠ 34) ∧ (toLower c).toNat ≤ 102 := by
  have hall : ∀ d : Fin 256, isIpChar (UInt8.ofNat d) = true →
      (isValueChar (UInt8.ofNat d) = true ∧ UInt8.ofNat d ≠ 34) ∧
        (toLower (UInt8.ofNat d)).toNat ≤ 102 := by decide +kernel
  have hc := hall ⟨c.toNat, c.toNat_lt⟩
  rw [UInt8.ofNat_toNat] at hc
  exact hc h

theorem isIpChar_of_mem_decNat {n : ℕ} {c : UInt8} (hc : c ∈ decNat n) : isIpChar c = true := by
  simp [isIpChar, isDigit_of_mem_decNat hc]

/-- A pair in a line about a rejected packet. -/
def packetItem (key value : Bytes) (hkey : IsKey key) (hne : value ≠ [])
    (hchars : ∀ c ∈ value, isValueChar c = true ∧ c ≠ 34) : Item where
  key := key
  value := .bare value hne (fun c hc => (hchars c hc).1) fun h =>
    (hchars 34 (List.mem_of_mem_head? h)).2 rfl
  isKey := hkey

/-- The pairs in a line about a rejected packet. -/
def packetItems (i : Fin 60) : List Item :=
  [packetItem (text "IN") (text "eth0") ⟨⟨73, text "N", rfl, by decide⟩, by decide +kernel⟩
      (by decide) (by decide +kernel),
    packetItem (text "SRC") cfg.atkScan ⟨⟨83, text "RC", rfl, by decide⟩, by decide +kernel⟩
      (attackers_differ cfg).2.2.1
      fun c hc => (address_byte ((attacker_chars cfg).2.1 c hc)).1,
    packetItem (text "DST") (text "10.0.0.1") ⟨⟨68, text "ST", rfl, by decide⟩, by decide +kernel⟩
      (by decide) (by decide +kernel),
    packetItem (text "DPT") (decNat (1024 + i)) ⟨⟨68, text "PT", rfl, by decide⟩, by decide +kernel⟩
      (decNat_ne_nil _) fun c hc => (address_byte (isIpChar_of_mem_decNat hc)).1]

theorem packet_message (i : Fin 60) : (Line.portScan i).message cfg =
    text "iptables REJECT" ++ 32 :: joinItems (packetItems cfg i) := by
  have hlead : text "iptables REJECT IN=eth0 SRC=" =
      text "iptables REJECT" ++ 32 :: (text "IN" ++ 61 :: (text "eth0" ++ 32 ::
        (text "SRC" ++ [61]))) := by decide
  have hdst : text " DST=10.0.0.1 DPT=" =
      32 :: (text "DST" ++ 61 :: (text "10.0.0.1" ++ 32 :: (text "DPT" ++ [61]))) := by decide
  simp [Line.message, hlead, hdst, joinItems, packetItems, packetItem, Item.text, Value.text]

/-- The fields of a line about a rejected packet. -/
theorem packet_pairs (i : Fin 60) : kvPairs ((Line.portScan i).message cfg) =
    [(text "IN", text "eth0"), (text "SRC", cfg.atkScan), (text "DST", text "10.0.0.1"),
      (text "DPT", decNat (1024 + i))] := by
  rw [packet_message, kvPairs_append_of_no_sign (by decide), kvPairs_skip (by decide),
    kvPairs_joinItems]
  rfl

/-- What a line is attributed to is what it is about. -/
theorem extractSrcIp_line (l : Line) {ev : LogEvent} (hmessage : ev.message = l.message cfg)
    (hfields : ∀ key, ev.fields.lookup key = firstValue key (kvPairs (l.message cfg))) :
    extractSrcIp ev = l.address cfg := by
  obtain ⟨hssh, -, hmulti⟩ := attacker_chars cfg
  rw [← hmessage] at hfields
  have hquiet : ∀ s : Bytes, ev.message = s → ((firstValue (text "src_ip") (kvPairs s)).getD
      ((firstValue (text "client") (kvPairs s)).getD ((firstValue (text "src") (kvPairs s)).getD
        ((srcMark s).getD (parseFromIp s))))) = [] → extractSrcIp ev = [] := by
    rintro s rfl h
    rw [extractSrcIp_eq, hfields, hfields, hfields]
    exact h
  cases l with
  | background idx =>
    have hturn : ∀ k < 5, ((firstValue (text "src_ip") (kvPairs (msgs.getD k []))).getD
        ((firstValue (text "client") (kvPairs (msgs.getD k []))).getD
          ((firstValue (text "src") (kvPairs (msgs.getD k []))).getD
            ((srcMark (msgs.getD k [])).getD (parseFromIp (msgs.getD k [])))))) = [] := by decide
    exact hquiet _ hmessage (hturn (idx % 5) (Nat.mod_lt idx (by decide)))
  | sshFail i =>
    have hlead : text "Failed password for root from " =
        text "Failed password for root " ++ text "from " := by decide
    have hsign : 61 ∉ ev.message := by
      rw [hmessage]
      have hfront : 61 ∉ text "Failed password for root from " := by decide
      have hend : 61 ∉ text " port 54321 ssh2" := by decide
      simp [Line.message, hfront, hend, not_mem_of_chars hssh (z := 61) (by decide)]
    rw [extractSrcIp_plain hsign hfields, hmessage, Line.message, hlead, List.append_assoc,
      fromMark_address (by decide) hssh (.inr ⟨text "port 54321 ssh2", by decide⟩)]
    rfl
  | portScan i =>
    rw [hmessage, packet_pairs] at hfields
    rw [extractSrcIp_eq, hfields, hfields, hfields]
    rfl
  | nginxFail | sshdFail =>
    have hlead : text "authentication failure from " =
        text "authentication failure " ++ text "from " := by decide
    have hsign : 61 ∉ ev.message := by
      rw [hmessage]
      have hfront : 61 ∉ text "authentication failure from " := by decide
      simp [Line.message, hfront, not_mem_of_chars hmulti (z := 61) (by decide)]
    have hfound : fromMark (text "authentication failure " ++ (text "from " ++
        (cfg.atkMulti ++ []))) = some cfg.atkMulti :=
      fromMark_address (by decide) hmulti (.inl rfl)
    rw [List.append_nil] at hfound
    rw [extractSrcIp_plain hsign hfields, hmessage, Line.message, hlead, List.append_assoc, hfound]
    rfl
  | sudoOpen =>
    exact hquiet (text "pam_unix(sudo:session): session opened for user root by newuser(uid=1001)")
      hmessage (by decide)
  | started => exact hquiet (text "DLADS simulator started") hmessage (by decide)

end addresses

end Dlads.SimulatedLogs
