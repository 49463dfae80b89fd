import DocumentViews.Text.Blank
import DocumentViews.Text.Search

/-! Connection texts.
In keyword form a text is pairs of a keyword and a value with blanks between them. A value stands
between single quotes or is a non-empty run up to the next blank, and a backslash takes the next
character as it is. The other form is an address; of it only the host matters here. -/
namespace DocumentViews.Settings

/-- A value up to its closing quote, and what follows the quote. -/
def quotedValue : List Char → Option (List Char × List Char)
  | [] => none
  | [c] => if c = '\'' then some ([], []) else none
  | c :: d :: rest =>
    if c = '\'' then some ([], d :: rest)
    else if c = '\\' then (quotedValue rest).map fun found => (d :: found.1, found.2)
    else (quotedValue (d :: rest)).map fun found => (c :: found.1, found.2)

/-- A value up to the next blank, and what follows. -/
def bareValue : List Char → List Char × List Char
  | [] => ([], [])
  | [c] => if Text.isBlank c then ([], [c]) else if c = '\\' then ([], []) else ([c], [])
  | c :: d :: rest =>
    if Text.isBlank c then ([], c :: d :: rest)
    else if c = '\\' then (d :: (bareValue rest).1, (bareValue rest).2)
    else (c :: (bareValue (d :: rest)).1, (bareValue (d :: rest)).2)

def value : List Char → Option (List Char × List Char)
  | [] => none
  | c :: rest =>
    if c = '\'' then quotedValue rest
    else
      let found := bareValue (c :: rest)
      if found.1.isEmpty then none else some found

def skipBlanks (text : List Char) : List Char := text.dropWhile Text.isBlank

def inKeyword (c : Char) : Bool := !Text.isBlank c && c ≠ '='

/-- What follows an equals sign and the blanks around it. -/
def afterEquals (text : List Char) : Option (List Char) :=
  match skipBlanks text with
  | '=' :: rest => some (skipBlanks rest)
  | _ => none

theorem length_quotedValue {text : List Char} {found : List Char × List Char}
    (h : quotedValue text = some found) : found.2.length ≤ text.length := by
  fun_induction quotedValue text generalizing found <;> grind [Option.map_eq_some_iff]

theorem length_bareValue (text : List Char) : (bareValue text).2.length ≤ text.length := by
  fun_induction bareValue text <;> grind

theorem length_value {text : List Char} {found : List Char × List Char}
    (h : value text = some found) : found.2.length ≤ text.length := by
  cases text with
  | nil => cases h
  | cons c rest =>
    rw [value] at h
    split at h
    · exact Nat.le_succ_of_le (length_quotedValue h)
    · have shorter := length_bareValue (c :: rest)
      grind

theorem length_skipBlanks (text : List Char) : (skipBlanks text).length ≤ text.length :=
  (List.dropWhile_sublist _).length_le

theorem length_afterEquals {text rest : List Char} (h : afterEquals text = some rest) :
    rest.length ≤ text.length := by
  have outer := length_skipBlanks text
  unfold afterEquals at h
  split at h
  · rename_i inner found
    cases h
    have later := length_skipBlanks inner
    grind
  · cases h

/-- The keyword and value at the front of a text that starts with a keyword, and what follows. -/
def pair (text : List Char) : Option ((String × String) × List Char) :=
  match afterEquals (text.dropWhile inKeyword) with
  | none => none
  | some rest =>
    match value rest with
    | none => none
    | some (found, after) =>
      some ((String.ofList (text.takeWhile inKeyword), String.ofList found), after)

theorem length_pair {text after : List Char} {found : String × String}
    (h : pair text = some (found, after)) : after.length ≤ (text.dropWhile inKeyword).length := by
  unfold pair at h
  split at h
  · cases h
  · rename_i rest hr
    split at h
    · cases h
    · rename_i inside later hv
      cases h
      exact Nat.le_trans (length_value hv) (length_afterEquals hr)

/-- Reading a pair leaves less than there was. -/
theorem length_after {text rest after : List Char} {c : Char} {found : String × String}
    (start : skipBlanks text = c :: rest) (keyword : inKeyword c = true)
    (step : pair (c :: rest) = some (found, after)) : after.length < text.length := by
  have outer := length_skipBlanks text
  have inner := length_pair step
  have shorter := (List.dropWhile_sublist (l := rest) inKeyword).length_le
  rw [start, List.length_cons] at outer
  rw [List.dropWhile_cons_of_pos keyword] at inner
  omega

/-- The pairs of a text in keyword form; none when a pair is broken. Reading ends where no keyword
starts. -/
def pairs (text : List Char) : Option (List (String × String)) :=
  match start : skipBlanks text with
  | [] => some []
  | c :: rest =>
    if keyword : inKeyword c then
      match step : pair (c :: rest) with
      | none => none
      | some (found, after) =>
        have : after.length < text.length := length_after start keyword step
        (pairs after).map (found :: ·)
    else some []
termination_by text.length

def keywords : List String :=
  ["user", "password", "dbname", "options", "application_name", "sslmode", "sslnegotiation", "host",
   "hostaddr", "port", "connect_timeout", "tcp_user_timeout", "keepalives", "keepalives_idle",
   "keepalives_interval",
   "keepalives_retries", "target_session_attrs", "channel_binding", "load_balance_hosts"]

def hostKeywords : List String := ["host", "hostaddr"]

def schemes : List String := ["postgres://", "postgresql://"]

/-- The host of an address, given without what it starts with: after the credentials, up to
the path. -/
def addressHost (address : List Char) : List Char :=
  let located := (Text.after? ['@'] address).getD address
  located.takeWhile fun c => c ≠ '/' && c ≠ '?'

/-- Whether a connection text names a host; none when it cannot be read. -/
def namesHost? (text : String) : Option Bool :=
  match schemes.findSome? fun scheme => Text.afterStart? scheme text.toList with
  | some address => some (!(addressHost address).isEmpty)
  | none =>
    match pairs text.toList with
    | none => none
    | some found =>
      if found.all fun entry => keywords.contains entry.1 then
        some (found.any fun entry => hostKeywords.contains entry.1)
      else none

end DocumentViews.Settings
