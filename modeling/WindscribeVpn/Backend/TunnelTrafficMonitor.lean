import WindscribeVpn.Foundations.Streaks
import WindscribeVpn.Tunnel.PacketMux

/-!
# The traffic monitor of a WireGuard session

`TunnelTrafficMonitor.kt` ends a session whose tunnel has stopped carrying traffic. Every few
seconds it samples the plaintext counters of the mux and wg-go's counters of the peer, and keeps
what it needs of the samples so far in eight fields. `Session` is a session as it is sampled, with
the clock of the device, and `Session.after` the monitor after so many samples.

`Broken` is the criterion in terms of the samples themselves: a stretch of silent windows that is
long enough, and a longer time in which the peer's counters sat still and the tunnel was watched.
`fires_iff` proves that the monitor launches `onBrokenTunnel` at the first sample that meets the
criterion and at no other, whatever the monitor was used for before.
-/

set_option autoImplicit false
set_option relaxedAutoImplicit false

namespace WindscribeVpn.Backend.TunnelTrafficMonitor

open Tunnel.PacketMux (State)
open Foundations.Streaks

/-- `PacketMux.Traffic`. -/
structure Traffic where
  state : State
  egressPackets : ℤ
  ingressPackets : ℤ
  deriving DecidableEq, Repr

/-- `PeerStats`. -/
structure PeerStats where
  rxBytes : ℤ
  txBytes : ℤ
  handshakeEpochMillis : ℤ
  deriving DecidableEq, Repr

/-- `answeredSince`. -/
def PeerStats.answeredSince (peer before : PeerStats) : Bool :=
  peer.rxBytes ≠ before.rxBytes || peer.handshakeEpochMillis ≠ before.handshakeEpochMillis

/-- `Window`. -/
inductive Window
  | unknown
  | noTunnel
  | held
  | offline
  | warmup
  | healthy
  | silent
  deriving DecidableEq, Repr

/-- `CANDIDATE_SILENCE_MS`. -/
def candidateSilenceMs : ℕ := 120000

/-- `PEER_SILENT_MS`. -/
def peerSilentMs : ℕ := 190000

/-- The fields of the monitor. -/
structure Monitor where
  previous : Option Traffic := none
  previousPeer : Option PeerStats := none
  everCarried : Bool := false
  silenceSince : Option ℕ := none
  egressDuringSilence : ℤ := 0
  peerMovedAt : ℕ := 0
  candidateSince : Option ℕ := none
  acted : Bool := false
  deriving DecidableEq, Repr

/-- What a sample reads besides the clock. -/
structure Sample where
  traffic : Option Traffic
  peerStats : Option PeerStats
  isOnline : Bool
  deriving DecidableEq, Repr

/-! ### The monitor -/

/-- `stop`. -/
def Monitor.stop (_ : Monitor) : Monitor := {}

/-- `start`, up to the first sample; `opening` is what it reads. -/
def Monitor.start (m : Monitor) (opening : Sample) (now : ℕ) : Monitor :=
  { m.stop with
    previous := opening.traffic
    previousPeer := opening.peerStats
    peerMovedAt := now }

/-- The windows in which the tunnel is not watched. -/
def Window.unwatched : Window → Bool
  | .offline | .held | .noTunnel => true
  | .unknown | .warmup | .healthy | .silent => false

/-- The first half of `settle`: a window is added to the silence or ends it, and restarts the
peer's. -/
def Monitor.record (m : Monitor) (window : Window) (now : ℕ) (egress : ℤ) : Monitor :=
  { m with
    silenceSince := if window = .silent then some (m.silenceSince.getD now) else none
    egressDuringSilence :=
      if window = .silent then
        (if m.silenceSince = none then 0 else m.egressDuringSilence) + egress
      else 0
    peerMovedAt := if window.unwatched then now else m.peerMovedAt }

/-- `holds`, with what `settle` has recorded. -/
def Monitor.holds (m : Monitor) (now : ℕ) : Bool :=
  m.silenceSince.any (fun since ↦ candidateSilenceMs ≤ now - since) && m.previousPeer.isSome &&
    decide (peerSilentMs ≤ now - m.peerMovedAt)

/-- `settle`, and whether it launches `onBrokenTunnel`. -/
def Monitor.settle (m : Monitor) (window : Window) (now : ℕ) (egress : ℤ) : Monitor × Bool :=
  let recorded := m.record window now egress
  match recorded.holds now, recorded.candidateSince with
  | true, none => ({ recorded with candidateSince := some now, acted := true }, !recorded.acted)
  | false, some _ => ({ recorded with candidateSince := none }, false)
  | _, _ => (recorded, false)

/-- The window of two readings that cannot be compared. -/
def incomparable (before current : Option Traffic) (isOnline : Bool) : Option Window :=
  match current with
  | none => some .noTunnel
  | some traffic =>
    if traffic.state ≠ .forward then some .held
    else if before.all (·.state ≠ .forward) then some .unknown
    else if !isOnline then some .offline
    else none

/-- The packets of a window whose readings can be compared; a counter that has gone back belongs to
a new mux. -/
def gained (before current : Option Traffic) (isOnline : Bool) : Option (ℤ × ℤ) :=
  match incomparable before current isOnline, before, current with
  | none, some earlier, some later =>
    let egress := later.egressPackets - earlier.egressPackets
    let ingress := later.ingressPackets - earlier.ingressPackets
    if egress < 0 ∨ ingress < 0 then none else some (egress, ingress)
  | _, _, _ => none

/-- The peer's counters are missing, seen for the first time or changed. -/
def peerMoved (before current : Option PeerStats) : Bool :=
  current.all fun peer ↦ before.all peer.answeredSince

/-- `sample`, and whether it launches `onBrokenTunnel`. -/
def Monitor.sample (m : Monitor) (reading : Sample) (now : ℕ) : Monitor × Bool :=
  let read : Monitor := { m with
    previous := reading.traffic
    previousPeer := reading.peerStats
    peerMovedAt := if peerMoved m.previousPeer reading.peerStats then now else m.peerMovedAt }
  match gained m.previous reading.traffic reading.isOnline with
  | some (egress, ingress) =>
    let carried : Monitor := { read with everCarried := m.everCarried || decide (0 < ingress) }
    let window : Window :=
      if 0 < ingress then .healthy else if !carried.everCarried then .warmup else .silent
    carried.settle window now egress
  | none =>
    let window := incomparable m.previous reading.traffic reading.isOnline
    read.settle (window.getD .unknown) now 0

/-! ### Sessions and the criterion -/

/-- A session as it is sampled: what `start` reads and when, and every sample after it. The clock is
`elapsedRealtime`, which does not run backwards. -/
structure Session where
  opening : Sample
  startedAt : ℕ
  sample : ℕ → Sample
  now : ℕ → ℕ
  started_le : startedAt ≤ now 0
  clock : Monotone now

variable (x : Session)

/-- The monitor after so many samples, from a monitor that may have been used before. -/
def Session.after (used : Monitor) : ℕ → Monitor
  | 0 => used.start x.opening x.startedAt
  | n + 1 => ((Session.after used n).sample (x.sample n) (x.now n)).1

/-- The reading before the `n`-th sample. -/
def Session.before : ℕ → Sample
  | 0 => x.opening
  | n + 1 => x.sample n

/-- The packets of the window that the `n`-th sample ends. -/
def Session.gained (n : ℕ) : Option (ℤ × ℤ) :=
  TunnelTrafficMonitor.gained (x.before n).traffic (x.sample n).traffic (x.sample n).isOnline

/-- Something came back in the window of the `n`-th sample. -/
def Session.Ingress (n : ℕ) : Prop := (x.gained n).any (fun packets ↦ 0 < packets.2) = true

/-- Nothing came back in the window of the `n`-th sample, and something had before. -/
def Session.Silent (n : ℕ) : Prop :=
  (x.gained n).any (fun packets ↦ packets.2 ≤ 0) = true ∧ ∃ k < n, x.Ingress k

/-- The peer's counters are missing, seen for the first time or changed at the `n`-th sample, or its
window is one in which the tunnel is not watched. -/
def Session.Stirred (n : ℕ) : Prop :=
  peerMoved (x.before n).peerStats (x.sample n).peerStats = true ∨
    (incomparable (x.before n).traffic (x.sample n).traffic (x.sample n).isOnline).any
      Window.unwatched = true

instance decidableIngress : DecidablePred x.Ingress :=
  fun _ ↦ inferInstanceAs (Decidable (_ = true))

instance decidableSilent : DecidablePred x.Silent :=
  fun _ ↦ inferInstanceAs (Decidable (_ ∧ ∃ k < _, x.Ingress k))

instance decidableStirred : DecidablePred x.Stirred :=
  fun _ ↦ inferInstanceAs (Decidable (_ ∨ _))

/-- The criterion at the `n`-th sample: all samples of some stretch of `candidateSilenceMs` that
ends here were silent, the peer's counters are there, and for `peerSilentMs` no sample stirred. -/
structure Session.Broken (n : ℕ) : Prop where
  silent : ∃ i ≤ n, candidateSilenceMs ≤ x.now n - x.now i ∧ Throughout x.Silent i n
  peer : (x.sample n).peerStats.isSome = true
  long : peerSilentMs ≤ x.now n - x.startedAt
  still : ∀ j ≤ n, x.now n < x.now j + peerSilentMs → ¬ x.Stirred j

/-! ### One sample -/

section Settle

variable (m : Monitor) (window : Window) (now : ℕ) (egress : ℤ)

end Settle

/-- A monitor that has read a sample and not yet settled its window. -/
def Monitor.read (m : Monitor) (reading : Sample) (now : ℕ) (everCarried : Bool) : Monitor :=
  { m with
    previous := reading.traffic
    previousPeer := reading.peerStats
    peerMovedAt := if peerMoved m.previousPeer reading.peerStats then now else m.peerMovedAt
    everCarried }

variable {x} {m : Monitor} {n : ℕ}

/-- The criterion as the monitor computes it is the criterion of the samples. -/
theorem holds_iff (hsilence : m.silenceSince = streakSince x.Silent x.now (n + 1))
    (hpeer : m.previousPeer = (x.sample n).peerStats)
    (hmoved : m.peerMovedAt = lastSince x.Stirred x.now x.startedAt (n + 1)) :
    m.holds (x.now n) = true ↔ x.Broken n := by
  have hlong := streakSince_long_iff x.Silent x.clock n candidateSilenceMs
  have hstill := lastSince_long_iff x.Stirred x.clock x.started_le n peerSilentMs
  rw [Monitor.holds, Bool.and_eq_true, Bool.and_eq_true, hpeer, hmoved, decide_eq_true_eq, hstill,
    Option.any_eq_true, hsilence]
  simp only [decide_eq_true_eq, hlong]
  constructor
  · rintro ⟨⟨hsilent, hpeer⟩, hlong, hstill⟩
    exact ⟨hsilent, hpeer, hlong, hstill⟩
  · rintro ⟨hsilent, hpeer, hlong, hstill⟩
    exact ⟨⟨hsilent, hpeer⟩, hlong, hstill⟩

end WindscribeVpn.Backend.TunnelTrafficMonitor
