/-
Inbox snapshots (`GitHubHelpers.js`): repositories, sources and the row that is
kept of whatever a page or a saved state holds.
-/
import CybexOS.Dict
import CybexOS.JsString
import CybexOS.Json.Js

namespace CybexOS

namespace GitHub

open Json (JsValue)

/-! ### Texts -/

/-- `raw[name]`, `none` for undefined. -/
def field (raw : JsValue) (name : String) : Option JsValue :=
  match raw with
  | .obj fields => fields.lookup (ascii name)
  | _ => none

/-- `raw[name] === true` -/
def isTrue (raw : JsValue) (name : String) : Bool :=
  match field raw name with
  | some (.bool value) => value
  | _ => false

def cleanText (value : Option JsValue) (limit : Nat) : Text :=
  match value with
  | some (.str text) => (jsTrim (collapseSpaces false (blankControls text))).take limit
  | _ => []

/-- `left || right` -/
def orText (left right : Text) : Text := if left = [] then right else left

def isLetter (c : Nat) : Bool := isLower c || isUpper c

/-- The unit as `toLowerCase` writes it, for ASCII. -/
def lowerUnit (c : Nat) : Nat := if isUpper c then c + 32 else c

/-- What follows a prefix in any case. -/
def afterPrefixIgnoringCase (start text : Text) : Option Text :=
  afterPrefix start (text.map lowerUnit) |>.map fun _ => text.drop start.length

/-! ### Repositories -/

/-- `^[a-z]+:\/\/` in any case. -/
def stripScheme (text : Text) : Text :=
  match text.takeWhile isLetter, afterPrefix (ascii "://") (text.dropWhile isLetter) with
  | _ :: _, some rest => rest
  | _, _ => text

/-- `^(www\.)?github\.com\/` in any case. -/
def stripHost (text : Text) : Text :=
  match afterPrefixIgnoringCase (ascii "www.github.com/") text with
  | some rest => rest
  | none => (afterPrefixIgnoringCase (ascii "github.com/") text).getD text

/-- `\.git$` in any case. -/
def stripGitSuffix (text : Text) : Text :=
  if (ascii ".git").isSuffixOf (text.map lowerUnit) then text.take (text.length - 4) else text

def OWNER_RE (owner : Text) : Bool :=
  owner.head?.any isAlnum && owner.tail.all fun c => isAlnum c || c == 45

def NAME_RE (name : Text) : Bool :=
  name ≠ [] && name.all fun c => isAlnum c || c ∈ ascii "._-"

def repoSlug (value : Option JsValue) : Text :=
  match value with
  | some (.str text) =>
      let text := stripScheme (jsTrim text)
      let text := (afterPrefixIgnoringCase (ascii "git@github.com:") text).getD text
      let text := trimWith (· == 47) (stripGitSuffix (stripHost text))
      let owner := text.takeWhile (· != 47)
      match text.dropWhile (· != 47) with
      | _ :: name =>
          if 47 ∉ name ∧ OWNER_RE owner ∧ NAME_RE name ∧ name ∉ [ascii ".", ascii ".."] then
            owner ++ 47 :: name
          else []
      | [] => []
  | _ => []

/-! ### Sources -/

/-- `raw.kind === kind` -/
def isKind (raw : JsValue) (kind : String) : Bool :=
  match field raw "kind" with
  | some (.str text) => text == ascii kind
  | _ => false

def inboxSourceForRow (raw : JsValue) : Text :=
  let slug := repoSlug (field raw "repo")
  if isKind raw "notification" then ascii "notifications"
  else if slug = [] then []
  else ascii (if isKind raw "run" then "workflows:" else "events:") ++ slug.map lowerUnit

/-- Without a colon no prefix is left that could be one of the two. -/
def validInboxSource (value : Option JsValue) : Text :=
  match value with
  | some (.str text) =>
      if text = ascii "notifications" then text
      else
        let start := text.takeWhile (· != 58)
        let slug := repoSlug (some (.str (text.drop (start.length + 1))))
        if start.length < text.length ∧ start ∈ [ascii "workflows", ascii "events"] ∧ slug ≠ [] then
          start ++ 58 :: slug.map lowerUnit
        else []
  | _ => []

/-! ### Rows -/

inductive Lifecycle where
  | active
  | settled
  | unsettled
deriving DecidableEq

def Lifecycle.name : Lifecycle → Text
  | .active => ascii "active"
  | .settled => ascii "settled"
  | .unsettled => ascii "unsettled"

/-- A row as the inbox keeps it.  Its `id` is its key, it is never `unread`,
and `canSettle` says that it is not active. -/
structure Row where
  key : Text
  revision : Text
  source : Text
  kind : Text
  repo : Text
  title : Text
  detail : Text
  status : Text
  conclusion : Text
  active : Bool
  attention : Bool
  tone : Text
  lifecycle : Lifecycle
  noticedAt : Text
  settledAt : Text
  at' : Text
  url : Text
  actor : Text
  number : Number
  branch : Text
  event : Text
  runId : Text
  attempt : Number
  createdAt : Text
  startedAt : Text
  reason : Text
  subjectType : Text
  security : Bool
  githubUnread : Bool
  ref : Text
  refType : Text
  eventType : Text
deriving DecidableEq

def Row.canSettle (row : Row) : Bool := !row.active

/-- The row as a value that is read again. -/
def Row.value (row : Row) : JsValue :=
  .obj [(ascii "id", .str row.key), (ascii "key", .str row.key),
    (ascii "revision", .str row.revision), (ascii "source", .str row.source),
    (ascii "kind", .str row.kind), (ascii "repo", .str row.repo),
    (ascii "title", .str row.title), (ascii "detail", .str row.detail),
    (ascii "status", .str row.status), (ascii "conclusion", .str row.conclusion),
    (ascii "active", .bool row.active), (ascii "attention", .bool row.attention),
    (ascii "tone", .str row.tone), (ascii "unread", .bool false),
    (ascii "lifecycle", .str row.lifecycle.name), (ascii "noticedAt", .str row.noticedAt),
    (ascii "settledAt", .str row.settledAt), (ascii "canSettle", .bool row.canSettle),
    (ascii "at", .str row.at'), (ascii "url", .str row.url), (ascii "actor", .str row.actor),
    (ascii "number", .num row.number), (ascii "branch", .str row.branch),
    (ascii "event", .str row.event), (ascii "runId", .str row.runId),
    (ascii "attempt", .num row.attempt), (ascii "createdAt", .str row.createdAt),
    (ascii "startedAt", .str row.startedAt), (ascii "reason", .str row.reason),
    (ascii "subjectType", .str row.subjectType), (ascii "security", .bool row.security),
    (ascii "githubUnread", .bool row.githubUnread), (ascii "ref", .str row.ref),
    (ascii "refType", .str row.refType), (ascii "eventType", .str row.eventType)]

/-- What every object inherits: a look-up in a plain object finds it. -/
def INHERITED : List Text :=
  [ascii "constructor", ascii "hasOwnProperty", ascii "isPrototypeOf",
    ascii "propertyIsEnumerable", ascii "toLocaleString", ascii "toString", ascii "valueOf",
    ascii "__proto__", ascii "__defineGetter__", ascii "__defineSetter__",
    ascii "__lookupGetter__", ascii "__lookupSetter__"]

def INBOX_KINDS : List Text :=
  [ascii "run", ascii "notification", ascii "push", ascii "ref", ascii "issue",
    ascii "pull_request", ascii "release", ascii "discussion"] ++ INHERITED

def INBOX_TONES : List Text :=
  [ascii "red", ascii "amber", ascii "accent", ascii "green", ascii "muted"] ++ INHERITED

/-- `^(?:run|notification|push|ref|issue|pr|release|discussion):` -/
def keyPrefixed (key : Text) : Bool :=
  [ascii "run:", ascii "notification:", ascii "push:", ascii "ref:", ascii "issue:", ascii "pr:",
    ascii "release:", ascii "discussion:"].any (·.isPrefixOf key)

def positiveInt (value : Option JsValue) (fallback : Number) : Number :=
  match value with
  | some (.num (.fin number)) => if 0 < number.val then .ofRat ⌊number.val⌋ else fallback
  | _ => fallback

def githubUrl (value : Option JsValue) (fallback : Text) : Text :=
  match value with
  | some (.str text) =>
      let url := jsTrim text
      if (ascii "https://github.com/").isPrefixOf url then url else fallback
  | _ => fallback

section

variable (dateParse : Text → Option ℤ)

def cleanStamp (value : Option JsValue) : Text :=
  let stamp := cleanText value 64
  if stamp ≠ [] ∧ (dateParse stamp).isSome then stamp else []

/-- `raw.lifecycle === "settled"` -/
def isSettled (raw : JsValue) : Bool :=
  match field raw "lifecycle" with
  | some (.str text) => text == ascii "settled"
  | _ => false

def normalizeInboxSnapshot (raw : JsValue) (sourceOverride : Text) : Option Row :=
  let key := cleanText (match field raw "key" with
    | some (.str key) => some (.str key)
    | _ => field raw "id") 600
  let revision := cleanText (field raw "revision") 600
  let kind := cleanText (field raw "kind") 40
  let slug := repoSlug (field raw "repo")
  let active := kind = ascii "run" && isTrue raw "active"
  let source := orText (validInboxSource (some (.str sourceOverride)))
    (orText (validInboxSource (field raw "source")) (inboxSourceForRow raw))
  let lifecycle : Lifecycle := if active then .active else if isSettled raw then .settled else .unsettled
  let tone := cleanText (field raw "tone") 20
  let stamp := fun name => cleanStamp dateParse (field raw name)
  let text := fun name limit => cleanText (field raw name) limit
  if key = [] ∨ revision = [] ∨ kind ∉ INBOX_KINDS ∨ slug = [] ∨ !keyPrefixed key ∨ source = [] then
    none
  else some
    { key := key
      revision := revision
      source := source
      kind := kind
      repo := slug
      title := orText (text "title" 300) (ascii "GitHub update")
      detail := text "detail" 600
      status := text "status" 80
      conclusion := text "conclusion" 80
      active := active
      attention := !active && isTrue raw "attention"
      tone := if tone ∈ INBOX_TONES then tone else ascii (if active then "accent" else "muted")
      lifecycle := lifecycle
      noticedAt := stamp "noticedAt"
      settledAt := if lifecycle = .settled then stamp "settledAt" else []
      at' := stamp "at"
      url := githubUrl (field raw "url") (ascii "https://github.com/" ++ slug)
      actor := text "actor" 100
      number := positiveInt (field raw "number") (.ofRat 0)
      branch := text "branch" 300
      event := text "event" 80
      runId := text "runId" 80
      attempt := positiveInt (field raw "attempt") (.ofRat 1)
      createdAt := stamp "createdAt"
      startedAt := stamp "startedAt"
      reason := text "reason" 80
      subjectType := text "subjectType" 80
      security := isTrue raw "security"
      githubUnread := match field raw "githubUnread" with
        | some (.bool value) => value
        | _ => true
      ref := text "ref" 500
      refType := text "refType" 40
      eventType := text "eventType" 80 }

/-- The time of a row, 0 where it has none. -/
def atMs (row : Row) : ℤ := (dateParse row.at').getD 0

end

end GitHub

end CybexOS
