import HubFederation.Registry.Basic

/-!
# Settings of the controller

What the command line can set, and what it is when the command line is silent.

* `Settings.set?` reads the text of a value.
* `Settings.identityFile` and `Settings.clusterInfo` are what the rest is given.
* `leastDebounceMs_le_of_set?`: no setting makes the debounce interval too short.
-/
namespace HubFederation

inductive LogFormat where
  | plain
  | json
  deriving DecidableEq, Repr

/-- What an option sets. -/
inductive Setting where
  | logFormat
  | ns
  | tunnelNs
  | tunnelSshDir
  | identityKeyName
  | portRangeStart
  | portRangeSize
  | debounceMs
  | resyncIntervalSecs
  | patchTimeoutMs
  deriving DecidableEq, Repr

/-- mirrors `Args` -/
structure Settings where
  logFormat : LogFormat := .plain
  /-- Where hubs, routes and secrets are. -/
  ns : String := "ferry-system"
  /-- Where the tunnel runs on every hub. -/
  tunnelNs : String := "ferry-tunnel-system"
  tunnelSshDir : String := "/var/ferry/ssh"
  identityKeyName : String := "identity"
  portRangeStart : Port := 40000
  portRangeSize : Port := 10000
  debounceMs : Nat := 100
  resyncIntervalSecs : Nat := 30
  patchTimeoutMs : Nat := 5000
  deriving DecidableEq, Repr

namespace Setting

def all : List Setting :=
  [logFormat, ns, tunnelNs, tunnelSshDir, identityKeyName, portRangeStart, portRangeSize,
    debounceMs, resyncIntervalSecs, patchTimeoutMs]

/-- The name of the option. -/
def text : Setting → String
  | logFormat => "log-format"
  | ns => "namespace"
  | tunnelNs => "tunnel-namespace"
  | tunnelSshDir => "tunnel-ssh-dir"
  | identityKeyName => "identity-key-name"
  | portRangeStart => "port-range-start"
  | portRangeSize => "port-range-size"
  | debounceMs => "debounce-ms"
  | resyncIntervalSecs => "resync-interval-secs"
  | patchTimeoutMs => "patch-timeout-ms"

def ofText? (s : String) : Option Setting := all.find? (·.text = s)

theorem mem_all (k : Setting) : k ∈ all := by cases k <;> decide

theorem text_injective {k l : Setting} (h : k.text = l.text) : k = l := by
  cases k <;> cases l <;> first | rfl | exact absurd h (by decide)

@[simp] theorem ofText?_text (k : Setting) : ofText? k.text = some k := by
  cases h : ofText? k.text with
  | none => exact absurd (List.find?_eq_none.1 h k (mem_all k)) (by simp)
  | some l =>
    have : l.text = k.text := by simpa using List.find?_some h
    rw [text_injective this]

end Setting

namespace Settings

/-- The least debounce interval that is accepted. -/
def leastDebounceMs : Nat := 100

/-- A number of 64 bits without a sign. -/
def uint64? (s : String) : Option Nat := Text.readUnsigned 18446744073709551615 s.toList

/-- A number of 16 bits, read with an optional sign. -/
def uint16? (s : String) : Option Port :=
  (Text.readSigned 0 65535 s.toList).map fun i => UInt16.ofNat i.toNat

def logFormat? (s : String) : Option LogFormat :=
  if s = "plain" then some .plain else if s = "json" then some .json else none

/-- The settings with one of them read from a text, if the text says a value of it. -/
def set? (s : Settings) (k : Setting) (value : String) : Option Settings :=
  match k with
  | .logFormat => (logFormat? value).map fun logFormat => { s with logFormat }
  | .ns => some { s with ns := value }
  | .tunnelNs => some { s with tunnelNs := value }
  | .tunnelSshDir => some { s with tunnelSshDir := value }
  | .identityKeyName => some { s with identityKeyName := value }
  | .portRangeStart => (uint16? value).map fun portRangeStart => { s with portRangeStart }
  | .portRangeSize => (uint16? value).map fun portRangeSize => { s with portRangeSize }
  | .debounceMs =>
    ((uint64? value).filter (leastDebounceMs ≤ ·)).map fun debounceMs => { s with debounceMs }
  | .resyncIntervalSecs =>
    (uint64? value).map fun resyncIntervalSecs => { s with resyncIntervalSecs }
  | .patchTimeoutMs => (uint64? value).map fun patchTimeoutMs => { s with patchTimeoutMs }

/-- The file of the key that tunnels log in with. -/
def identityFile (s : Settings) : String :=
  let dir := (s.tunnelSshDir.toList.reverse.dropWhile (· = '/')).reverse
  String.ofList dir ++ "/" ++ s.identityKeyName

def clusterInfo (s : Settings) : ClusterInfo :=
  ⟨s.ns, s.tunnelNs, s.portRangeStart, s.portRangeSize⟩

/-- The settings that shape what the controller does. -/
def toJson (s : Settings) : Json :=
  .obj [("namespace", .str s.ns), ("tunnel_namespace", .str s.tunnelNs),
    ("tunnel_ssh_dir", .str s.tunnelSshDir), ("identity_key_name", .str s.identityKeyName),
    ("port_range_start", .ofNat s.portRangeStart.toNat),
    ("port_range_size", .ofNat s.portRangeSize.toNat), ("debounce_ms", .ofNat s.debounceMs),
    ("resync_interval_secs", .ofNat s.resyncIntervalSecs),
    ("patch_timeout_ms", .ofNat s.patchTimeoutMs)]

theorem leastDebounceMs_le_of_set? {s t : Settings} {k : Setting} {v : String}
    (hs : leastDebounceMs ≤ s.debounceMs) (h : s.set? k v = some t) :
    leastDebounceMs ≤ t.debounceMs := by
  cases k
  case debounceMs =>
    obtain ⟨ms, hms, rfl⟩ := Option.map_eq_some_iff.1 h
    simpa using (Option.filter_eq_some_iff.1 hms).2
  case ns | tunnelNs | tunnelSshDir | identityKeyName => cases h; exact hs
  all_goals
    obtain ⟨_, _, rfl⟩ := Option.map_eq_some_iff.1 h
    exact hs

end Settings

end HubFederation
