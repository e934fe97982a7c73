import Larder.Text.Blank
import Larder.Text.Numeral

namespace Larder

/-- Where the service is, how long to wait for it and how often to ask. Times are whole
milliseconds, the unit of every variable and default; a duration with a finer part, which only a
caller of the setters could hand in, is left out. -/
structure Settings where
  baseUrl : String
  timeout : Nat
  pollInterval : Nat
  maxPollAttempts : UInt32
  refreshInterval : Nat
  cacheDirectory : String
  deriving DecidableEq, Repr

namespace Settings

def defaultBaseUrl : String := "http://localhost:5050"

/-- A text without the given characters at its end. -/
def dropAtEnd (c : Char) (s : String) : String :=
  String.ofList (s.toList.reverse.dropWhile (· == c)).reverse

/-- Default timings; 120 polls at 2 s are 4 minutes. -/
def ofBaseUrl (url : String) : Settings where
  baseUrl := dropAtEnd '/' url
  timeout := 10000
  pollInterval := 2000
  maxPollAttempts := 120
  refreshInterval := 240000
  cacheDirectory := ".grocery"

def default : Settings := ofBaseUrl defaultBaseUrl

instance : Inhabited Settings := ⟨default⟩

def withBaseUrl (s : Settings) (url : String) : Settings :=
  { s with baseUrl := dropAtEnd '/' url }

/-- A timeout of zero is passed over. -/
def withTimeout (s : Settings) (ms : Nat) : Settings :=
  if ms = 0 then s else { s with timeout := ms }

def withPollInterval (s : Settings) (ms : Nat) : Settings := { s with pollInterval := ms }

/-- At least one attempt is allowed. -/
def withMaxPollAttempts (s : Settings) (attempts : UInt32) : Settings :=
  { s with maxPollAttempts := if attempts = 0 then 1 else attempts }

def withRefreshInterval (s : Settings) (ms : Nat) : Settings := { s with refreshInterval := ms }

def withCacheDirectory (s : Settings) (path : String) : Settings :=
  { s with cacheDirectory := path }

/-- The value of a variable, unless it is blank. -/
def present? (lookup : String → Option String) (name : String) : Option String :=
  (lookup name).filter (!Text.isBlankText ·)

/-- The number in a variable, below `2 ^ 64`. -/
def number? (lookup : String → Option String) (name : String) : Option Nat :=
  (present? lookup name).bind fun v => Text.count? (UInt64.size - 1) (Text.trim v)

/-- The largest count of 32 bits that is not above the number. -/
def clampCount (n : Nat) : UInt32 := UInt32.ofNat (min n (UInt32.size - 1))

/-- The variables that settings come from. -/
def variableNames : List String := ["ORDERING_API_URL", "GROCERY_CACHE_DIR",
  "GROCERY_HTTP_TIMEOUT_SECS", "GROCERY_POLL_INTERVAL_MS", "GROCERY_MAX_POLL_ATTEMPTS",
  "GROCERY_REFRESH_INTERVAL_SECS"]

/-- Settings from the variables that are set. -/
def ofVariables (lookup : String → Option String) : Settings :=
  let number? := number? lookup
  let url := (present? lookup "ORDERING_API_URL").getD defaultBaseUrl
  let s := ofBaseUrl url
  let s := ((present? lookup "GROCERY_CACHE_DIR").map s.withCacheDirectory).getD s
  let s := ((number? "GROCERY_HTTP_TIMEOUT_SECS").map fun n => s.withTimeout (1000 * n)).getD s
  let s := ((number? "GROCERY_POLL_INTERVAL_MS").map s.withPollInterval).getD s
  let s := ((number? "GROCERY_MAX_POLL_ATTEMPTS").map fun n =>
    s.withMaxPollAttempts (clampCount n)).getD s
  ((number? "GROCERY_REFRESH_INTERVAL_SECS").map fun n =>
    s.withRefreshInterval (1000 * n)).getD s

/-- The first number of seconds that a duration cannot hold. -/
def secondsBound : Nat := UInt64.size

/-- The longest time a poll loop sleeps, if a duration can hold it. -/
def maxPollDuration? (s : Settings) : Option Nat :=
  let ms := s.pollInterval * s.maxPollAttempts.toNat
  if ms / 1000 < secondsBound then some ms else none

end Settings

end Larder
