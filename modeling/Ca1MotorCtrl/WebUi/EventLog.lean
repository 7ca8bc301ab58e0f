import Ca1MotorCtrl.BoundedLog
import Ca1MotorCtrl.Transition.Run

/-! The event logs of the web UI. The server keeps the newest events of a node
in a deque and streams its content over and over; the page adds the entries
that it does not know to its own log, which also takes entries of the page. -/
namespace Ca1MotorCtrl

open Transition BoundedLog

/-- A log box: its entry of `logState` and its content. -/
structure EventLog where
  known : List String := []
  html : String := ""
  deriving DecidableEq, Repr

namespace EventLog

def containsChars (pattern : List Char) : List Char → Bool
  | [] => pattern.isEmpty
  | c :: text => pattern.isPrefixOf (c :: text) || containsChars pattern text

/-- The regular expressions of `appendLog` are literal tags. -/
def hasTag (tag entry : String) : Bool := containsChars tag.toList entry.toList

def cssClass (entry : String) : String :=
  if hasTag "[ERROR]" entry || hasTag "[FATAL]" entry || hasTag "[FAULT]" entry then "e-error"
  else if hasTag "[WARN]" entry then "e-warn"
  else if hasTag "[STATE]" entry then "e-state"
  else if hasTag "[DEBUG]" entry then "e-debug"
  else "e-info"

example : cssClass "[12:00:00] [FAULT] Drive faulted (error 0x8480)" = "e-error" := by decide

/-- The newest entry comes first. -/
def render (known : List String) : String :=
  String.join (known.reverse.map fun e =>
    "<div class=\"" ++ cssClass e ++ "\">" ++ e ++ "</div>")

/-- The loop of `appendLog`: the known entries and the number of added ones. -/
def scan (known : List String) (added : ℕ) : List String → List String × ℕ
  | [] => (known, added)
  | e :: entries =>
      if !known.contains e then scan (known ++ [e]) (added + 1) entries
      else scan known added entries

def appendLog (log : EventLog) (entries : List String) : EventLog :=
  let (known, added) := scan log.known 0 entries
  if added = 0 then log
  else
    let known := if known.length > 100 then known.drop (known.length - 100) else known
    { known := known, html := render known }

/-- The loop adds the fresh entries. -/
theorem scan_eq (known : List String) (added : ℕ) (entries : List String) :
    scan known added entries =
      (known ++ fresh known entries, added + (fresh known entries).length) := by
  induction entries generalizing known added with
  | nil => simp [scan, fresh]
  | cons e entries ih =>
      by_cases hKnown : e ∈ known
      · simp only [scan, fresh, ih, List.contains_iff_mem.mpr hKnown, hKnown]
        rfl
      · have hContains : known.contains e = false := by simpa using hKnown
        simp only [scan, fresh, ih, hContains, hKnown]
        simp [Nat.add_comm, Nat.add_left_comm]

theorem appendLog_of_known {log : EventLog} {entries : List String}
    (h : fresh log.known entries = []) : log.appendLog entries = log := by
  simp [appendLog, scan_eq, h]

/-- The log box is a bounded log of 100 entries. -/
theorem known_appendLog (log : EventLog) (entries : List String) :
    (log.appendLog entries).known = append 100 log.known entries := by
  by_cases hNone : fresh log.known entries = []
  · rw [appendLog_of_known hNone, append, if_pos hNone]
  · have hAdded : ¬0 + (fresh log.known entries).length = 0 := by
      simpa using hNone
    rw [append, if_neg hNone]
    simp only [appendLog, scan_eq]
    rw [if_neg hAdded]
    split
    · rfl
    next hShort => rw [newest_of_length_le 100 (Nat.le_of_not_lt hShort)]

end EventLog

/-- The deque of the server and the log box that is fed from it. -/
structure EventPanel where
  events : List String := []
  log : EventLog := {}
  deriving DecidableEq, Repr

/-- A server event arrives with its time stamp. `localEntry` is the echo of a
command of the page. -/
inductive PanelEvent where
  | serverEvent (entry : String)
  | snapshot
  | localEntry (entry : String)
  deriving DecidableEq, Repr

namespace EventPanel

def step (s : EventPanel) : PanelEvent → EventPanel
  | .serverEvent entry => { s with events := newest 100 (s.events ++ [entry]) }
  | .snapshot => { s with log := s.log.appendLog s.events }
  | .localEntry entry => { s with log := s.log.appendLog [entry] }

theorem known_step_snapshot (s : EventPanel) :
    (s.step .snapshot).log.known = append 100 s.log.known s.events := by
  rw [step, EventLog.known_appendLog]

theorem known_step_localEntry (s : EventPanel) (entry : String) :
    (s.step (.localEntry entry)).log.known = append 100 s.log.known [entry] := by
  rw [step, EventLog.known_appendLog]

/-- Applying the current snapshot twice is applying it once. -/
def Stable (s : EventPanel) : Prop :=
  (s.log.appendLog s.events).appendLog s.events = s.log.appendLog s.events

/-- The sizes and the uniqueness that the two windows always have. -/
structure Bounded (s : EventPanel) : Prop where
  events : s.events.length ≤ 100
  known : s.log.known.length ≤ 100
  nodup : s.log.known.Nodup

theorem bounded_step {s : EventPanel} (event : PanelEvent) (h : s.Bounded) :
    (s.step event).Bounded := by
  have hAppend (entries : List String) :
      (s.log.appendLog entries).known.length ≤ 100 ∧ (s.log.appendLog entries).known.Nodup := by
    rw [EventLog.known_appendLog]
    exact ⟨length_append_le 100 h.known entries, nodup_append 100 h.nodup entries⟩
  cases event with
  | serverEvent entry => exact ⟨length_newest_le 100 _, h.known, h.nodup⟩
  | snapshot => exact ⟨h.events, (hAppend _).1, (hAppend _).2⟩
  | localEntry entry => exact ⟨h.events, (hAppend _).1, (hAppend _).2⟩

theorem bounded_run (events : List PanelEvent) : (run step {} events).Bounded := by
  apply run_invariant Bounded (fun s event => bounded_step event)
  exact ⟨Nat.zero_le _, Nat.zero_le _, List.nodup_nil⟩

/-- Only the known entries decide. -/
theorem Bounded.stable_iff {s : EventPanel} (h : s.Bounded) :
    s.Stable ↔ append 100 (append 100 s.log.known s.events) s.events =
      append 100 s.log.known s.events := by
  have hNodup := nodup_append 100 h.nodup s.events
  constructor
  · intro hStable
    have hKnown := congrArg EventLog.known hStable
    rw [EventLog.known_appendLog, EventLog.known_appendLog] at hKnown
    exact hKnown
  · intro hSame
    rw [append_eq_self_iff 100 hNodup h.events, ← fresh_eq_nil_iff,
      ← EventLog.known_appendLog] at hSame
    exact EventLog.appendLog_of_known hSame

/-- The entries that the server logs along a run. -/
def emitted (events : List PanelEvent) : List String :=
  events.filterMap fun event =>
    match event with
    | .serverEvent entry => some entry
    | _ => none

@[simp] theorem emitted_nil : emitted [] = [] := rfl

@[simp] theorem emitted_serverEvent (entry : String) (events : List PanelEvent) :
    emitted (.serverEvent entry :: events) = entry :: emitted events := rfl

@[simp] theorem emitted_snapshot (events : List PanelEvent) :
    emitted (.snapshot :: events) = emitted events := rfl

@[simp] theorem emitted_localEntry (entry : String) (events : List PanelEvent) :
    emitted (.localEntry entry :: events) = emitted events := rfl

/-- The deque holds the newest of all the entries logged so far. -/
theorem events_run {s : EventPanel} {before : List String} (h : s.events = newest 100 before)
    (events : List PanelEvent) :
    (run step s events).events = newest 100 (before ++ emitted events) := by
  induction events generalizing s before with
  | nil => rw [emitted_nil, List.append_nil, run_nil, h]
  | cons event events ih =>
      cases event with
      | serverEvent entry =>
          have hNext : (s.step (.serverEvent entry)).events = newest 100 (before ++ [entry]) := by
            rw [← newest_newest_append, ← h]
            rfl
          rw [run_cons, ih hNext, emitted_serverEvent, List.append_assoc, List.singleton_append]
      | snapshot => exact ih h
      | localEntry entry => exact ih h

theorem events_run_start (events : List PanelEvent) :
    (run step {} events).events = newest 100 (emitted events) := by
  have hEmpty : ({} : EventPanel).events = newest 100 [] := rfl
  rw [events_run hEmpty, List.nil_append]

/-- A page without entries of its own shows what the deque held at some time. -/
theorem known_run {s : EventPanel} {shown more : List String}
    (hEvents : s.events = newest 100 (shown ++ more)) (hKnown : s.log.known = newest 100 shown)
    {events : List PanelEvent} (hServer : ∀ entry, .localEntry entry ∉ events)
    (hNodup : (shown ++ more ++ emitted events).Nodup) :
    ∃ shown' more', shown' ++ more' = shown ++ more ++ emitted events ∧
      (run step s events).log.known = newest 100 shown' := by
  induction events generalizing s shown more with
  | nil => exact ⟨shown, more, by simp, hKnown⟩
  | cons event events ih =>
      have hRest : ∀ entry, .localEntry entry ∉ events := fun entry hMem =>
        hServer entry (List.mem_cons_of_mem _ hMem)
      cases event with
      | serverEvent entry =>
          have hNext : (s.step (.serverEvent entry)).events =
              newest 100 (shown ++ (more ++ [entry])) := by
            rw [← List.append_assoc, ← newest_newest_append, ← hEvents]
            rfl
          have hSame : shown ++ (more ++ [entry]) ++ emitted events =
              shown ++ more ++ emitted (.serverEvent entry :: events) := by simp
          rw [← hSame] at hNodup ⊢
          exact ih hNext hKnown hRest hNodup
      | snapshot =>
          have hTaken : (s.step .snapshot).log.known = newest 100 (shown ++ more) := by
            rw [known_step_snapshot, hKnown, hEvents,
              append_newest 100 (List.nodup_append.mp hNodup).1]
          have hNext : (s.step .snapshot).events = newest 100 (shown ++ more ++ []) := by
            rw [List.append_nil]
            exact hEvents
          have hSame : shown ++ more ++ [] ++ emitted events =
              shown ++ more ++ emitted (.snapshot :: events) := by simp
          rw [← hSame] at hNodup ⊢
          exact ih hNext hTaken hRest hNodup
      | localEntry entry => exact absurd List.mem_cons_self (hServer entry)

/-- Without entries of the page and recurring ones, the log catches up with the
deque and stays there. -/
theorem stable_of_no_local {events : List PanelEvent}
    (hServer : ∀ entry, .localEntry entry ∉ events) (hNodup : (emitted events).Nodup) :
    (run step {} events).Stable := by
  have hBounded := bounded_run events
  have hEmpty : ({} : EventPanel).events = newest 100 ([] ++ []) := rfl
  have hEvents := events_run_start events
  obtain ⟨shown, more, hAll, hKnown⟩ := known_run hEmpty rfl hServer hNodup
  change shown ++ more = emitted events at hAll
  have hDistinct : (shown ++ more).Nodup := by rwa [hAll]
  have hTaken := append_newest 100 hDistinct
  rw [← hKnown, hAll, ← hEvents] at hTaken
  rw [hBounded.stable_iff, hTaken, append_eq_self_iff 100 ?_ hBounded.events]
  · exact fun e hMem => hMem
  · rw [hEvents]
    exact hNodup.sublist (newest_suffix 100 _).sublist

end EventPanel

open EventPanel

/-- In every reachable state the current snapshot may be applied twice exactly
if from any entry that the log shares with it the rest of the log and the new
entries fit into the log. A page without local entries always meets that, as
long as no entry recurs. -/
theorem log_stable_iff (events : List PanelEvent) :
    let s := run step {} events
    (s.Stable ↔ HasRoom 100 s.log.known s.events) ∧
    ((∀ entry, .localEntry entry ∉ events) → (emitted events).Nodup → s.Stable) := by
  intro s
  have hBounded : s.Bounded := bounded_run events
  constructor
  · rw [hBounded.stable_iff,
      append_append_eq_iff 100 hBounded.nodup hBounded.known hBounded.events]
  · intro hServer hNodup
    exact stable_of_no_local hServer hNodup

namespace EventPanel

theorem emitted_append (first second : List PanelEvent) :
    emitted (first ++ second) = emitted first ++ emitted second := List.filterMap_append

theorem emitted_map_serverEvent (entries : List String) :
    emitted (entries.map .serverEvent) = entries := by
  induction entries with
  | nil => rfl
  | cons entry entries ih => rw [List.map_cons, emitted_serverEvent, ih]

theorem emitted_map_localEntry (entries : List String) :
    emitted (entries.map .localEntry) = [] := by
  induction entries with
  | nil => rfl
  | cons entry entries ih => rw [List.map_cons, emitted_localEntry, ih]

theorem log_step_serverEvent (s : EventPanel) (entry : String) :
    (s.step (.serverEvent entry)).log = s.log := by
  rw [step]

theorem log_run_serverEvents (s : EventPanel) (entries : List String) :
    (run step s (entries.map .serverEvent)).log = s.log := by
  induction entries generalizing s with
  | nil => rfl
  | cons entry entries ih => exact ih _

/-- New entries of the page go to the end of the log. -/
theorem known_run_local {s : EventPanel} {entries : List String}
    (hNodup : (s.log.known ++ entries).Nodup) (hFits : (s.log.known ++ entries).length ≤ 100) :
    (run step s (entries.map .localEntry)).log.known = s.log.known ++ entries := by
  induction entries generalizing s with
  | nil => simp
  | cons entry entries ih =>
      have hNext : (s.step (.localEntry entry)).log.known = s.log.known ++ [entry] := by
        have hNew : entry ∉ s.log.known := fun hOld =>
          (List.nodup_append.mp hNodup).2.2 entry hOld entry List.mem_cons_self rfl
        have hFresh : fresh s.log.known [entry] = [entry] := by simp [fresh, hNew]
        rw [known_step_localEntry, append, hFresh, if_neg (List.cons_ne_nil _ _)]
        apply newest_of_length_le
        simp only [List.length_append, List.length_cons, List.length_nil] at hFits ⊢
        omega
      have hSame : s.log.known ++ [entry] ++ entries = s.log.known ++ entry :: entries := by simp
      rw [← hSame, ← hNext] at hNodup hFits ⊢
      exact ih hNodup hFits

end EventPanel

/-- Distinct entries. -/
def numberedEntry (n : ℕ) : String := String.ofList (List.replicate n 'x')

theorem numberedEntry_injective : Function.Injective numberedEntry := by
  intro a b h
  have hLength := congrArg (fun s : String => s.toList.length) h
  simpa [numberedEntry] using hLength

def crowdedEvents : List String := (List.range 50).map numberedEntry

def crowdedCommands : List String := (List.range' 50 50).map numberedEntry

/-- Fifty events, which the page shows, then fifty commands and one more event. -/
def crowdedPanel : List PanelEvent :=
  crowdedEvents.map .serverEvent ++ [.snapshot] ++ crowdedCommands.map .localEntry ++
    [.serverEvent (numberedEntry 100)]

theorem crowdedEvents_append_crowdedCommands :
    crowdedEvents ++ crowdedCommands = (List.range 100).map numberedEntry := by
  have hRange : List.range 50 ++ List.range' 50 50 = List.range 100 := by decide
  rw [← hRange, List.map_append, crowdedEvents, crowdedCommands]

theorem emitted_crowdedPanel : emitted crowdedPanel = crowdedEvents ++ [numberedEntry 100] := by
  rw [crowdedPanel, emitted_append, emitted_append, emitted_append, emitted_map_serverEvent,
    emitted_map_localEntry, emitted_snapshot, emitted_nil, emitted_serverEvent, emitted_nil,
    List.append_nil, List.append_nil]

theorem events_crowdedPanel :
    (run EventPanel.step {} crowdedPanel).events = crowdedEvents ++ [numberedEntry 100] := by
  rw [events_run_start, emitted_crowdedPanel, newest_of_length_le]
  simp [crowdedEvents]

theorem known_crowdedPanel :
    (run EventPanel.step {} crowdedPanel).log.known = crowdedEvents ++ crowdedCommands := by
  have hNodup : (crowdedEvents ++ crowdedCommands).Nodup := by
    rw [crowdedEvents_append_crowdedCommands]
    exact List.nodup_range.map numberedEntry_injective
  have hLength : (crowdedEvents ++ crowdedCommands).length ≤ 100 := by
    simp [crowdedEvents, crowdedCommands]
  have hDeque : (run EventPanel.step {} (crowdedEvents.map .serverEvent)).events =
      crowdedEvents := by
    rw [events_run_start, emitted_map_serverEvent, newest_of_length_le]
    simp [crowdedEvents]
  have hFresh : fresh [] crowdedEvents = crowdedEvents :=
    fresh_of_disjoint (List.nodup_append.mp hNodup).1 (by simp)
  have hShown : (EventPanel.step (run EventPanel.step {} (crowdedEvents.map .serverEvent))
      .snapshot).log.known = crowdedEvents := by
    have hStart : ({} : EventPanel).log.known = [] := rfl
    have hRoom : ([] : List String).length ≤ 100 := Nat.zero_le 100
    rw [known_step_snapshot, hDeque, log_run_serverEvents, hStart, append_eq_newest 100 hRoom,
      hFresh, List.nil_append, newest_of_length_le]
    simp [crowdedEvents]
  rw [← hShown] at hNodup hLength
  rw [crowdedPanel, run_append, run_append, run_append, run_cons, run_nil, run_cons, run_nil,
    log_step_serverEvent, known_run_local hNodup hLength, hShown]

/-- The first event is pushed out by the last one and comes back with the next
snapshot. -/
theorem crowdedPanel_not_stable :
    ¬∀ events, (∀ before, before <+: events → (run EventPanel.step {} before).events.Nodup) →
      (run EventPanel.step {} events).Stable := by
  intro h
  have hAll : (crowdedEvents ++ [numberedEntry 100]).Nodup := by
    have hNumbers : (List.range 50 ++ [100]).Nodup := by decide
    have hMapped := hNumbers.map numberedEntry_injective
    rwa [List.map_append] at hMapped
  have hDistinct : ∀ before, before <+: crowdedPanel →
      (run EventPanel.step {} before).events.Nodup := by
    intro before hBefore
    have hEmitted : emitted before <+: emitted crowdedPanel := hBefore.filterMap _
    rw [emitted_crowdedPanel] at hEmitted
    rw [events_run_start]
    exact (hAll.sublist hEmitted.sublist).sublist (newest_suffix 100 _).sublist
  have hBounded := bounded_run crowdedPanel
  have hRoom := h crowdedPanel hDistinct
  rw [hBounded.stable_iff,
    append_append_eq_iff 100 hBounded.nodup hBounded.known hBounded.events, known_crowdedPanel,
    events_crowdedPanel] at hRoom
  have hFirst : numberedEntry 0 ∈ crowdedEvents :=
    List.mem_map_of_mem (List.mem_range.mpr (by omega))
  have hFits := hRoom (numberedEntry 0) (List.mem_append_left _ hFirst)
    (List.mem_append_left _ hFirst)
  have hNew : numberedEntry 100 ∉ crowdedEvents ++ crowdedCommands := by
    rw [crowdedEvents_append_crowdedCommands]
    intro hMem
    obtain ⟨n, hn, hEntry⟩ := List.mem_map.mp hMem
    have hSmall := List.mem_range.mp hn
    have hSame := numberedEntry_injective hEntry
    omega
  have hFresh : fresh (crowdedEvents ++ crowdedCommands) (crowdedEvents ++ [numberedEntry 100]) =
      [numberedEntry 100] := by
    rw [fresh_append_of_known fun e hMem => List.mem_append_left _ hMem, fresh, if_neg hNew, fresh]
  have hIndex : (crowdedEvents ++ crowdedCommands).idxOf (numberedEntry 0) = 0 := by
    rw [crowdedEvents_append_crowdedCommands, List.range_succ_eq_map, List.map_cons,
      List.idxOf_cons_self]
  have hLength : (crowdedEvents ++ crowdedCommands).length = 100 := by
    simp [crowdedEvents, crowdedCommands]
  rw [hFresh, hIndex, hLength] at hFits
  exact absurd hFits (by decide)

end Ca1MotorCtrl
