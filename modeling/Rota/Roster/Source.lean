import Rota.Config
import Rota.Http.Client
import Rota.Json.Format

/-!
# The source of rosters

Rosters come from a scheduling service, which lists its schedules page by page.
A schedule is looked for on one page after the other, by its id or by its name;
the first match counts. The search gives up after a fixed number of pages, so
that pages which lead to each other in a circle do no harm.
-/

namespace Rota.Roster

open Http (Network Request)

/-- The number of pages that are looked at. -/
def maxPages : Nat := 20

/-- **A schedule as the source lists it.** -/
structure Listed where
  id : String
  name : String := ""
  timeZone : Option String := none
  /-- The members on duty now. -/
  onDuty : List String := []
  deriving DecidableEq, Repr, Inhabited

/-- **A page of schedules**, and where the next one is. -/
structure Page where
  schedules : List Listed := []
  next : Option String := none
  deriving DecidableEq, Repr, Inhabited

/-- The members of a listed schedule. -/
def Listed.fields : Fields Document Listed :=
  Listed.mk <$> .required "id" Tree.text
    <*> .withDefault "name" Tree.text ""
    <*> .withDefault "time_zone" (Tree.optional Tree.text) none
    <*> .withDefault "on_call_now" (Tree.list Tree.text) []

/-- The members of a page. -/
def Page.fields : Fields Document Page :=
  Page.mk <$> .withDefault "results" (Tree.list (Tree.record Listed.fields)) []
    <*> .withDefault "next" (Tree.optional Tree.text) none

/-- Is this the schedule that is looked for? Its id decides, if one is
configured, and otherwise its name. -/
def Listed.isWanted (l : Listed) (schedule : Config.Schedule) : Bool :=
  match schedule.id with
  | some id => l.id == id
  | none => l.name == schedule.name

/-- The roster of a listed schedule. -/
def Listed.snapshot (l : Listed) (schedule : Config.Schedule) (time : Time.Timestamp) : Snapshot :=
  { scheduleId := l.id
    name := schedule.name
    members := l.onDuty
    timeZone := l.timeZone.getD "UTC"
    target := schedule.target
    fetched := time }

/-- **A source**: its address, without slashes at the end, and the token that
it expects. -/
structure Source where
  base : String
  token : String
  deriving DecidableEq, Repr, Inhabited

namespace Source

/-- **The source that is configured.** -/
def of (c : Config.Source) : Except Failure Source :=
  if c.url.isEmpty then .error (.configuration "oncall.url is required")
  else .ok { base := Http.withoutSlashes c.url, token := c.token }

/-- Where the first page is. -/
def start (s : Source) : String :=
  s.base ++ "/api/v1/schedules/"

/-- The request for a page. The token is sent as it is. -/
def request (s : Source) (address : String) : Except Http.SendFault Request :=
  Request.of .get address (if s.token.isEmpty then none else some s.token) none

/-- **Fetch a page.** -/
def page (s : Source) (network : Network) (address : String) : Except Failure Page :=
  match s.request address >>= Request.send network with
  | .error fault => .error (.fetch ("GET " ++ address ++ ": " ++ fault.message))
  | .ok answer =>
    if !Http.Status.isSuccess answer.status then
      .error (.fetch ("GET " ++ address ++ " returned " ++ Http.Status.text answer.status ++ ": "
        ++ answer.body))
    else
      match Document.parse (Tree.record Page.fields) answer.body with
      | .ok page => .ok page
      | .error _ =>
        .error (.fetch "invalid schedules response: error decoding response body")

/-- The failure to find a schedule. -/
def notFound (s : Source) (schedule : Config.Schedule) : Failure :=
  .fetch ("schedule '" ++ schedule.sourceId ++ "' not found at " ++ s.base)

/-- **Look for a schedule** on at most so many pages. The answer also tells
which pages were asked for. -/
def search (s : Source) (page : String → Except Failure Page) (schedule : Config.Schedule) :
    Nat → String → List String × Except Failure Listed
  | 0, _ => ([], .error (s.notFound schedule))
  | left + 1, address =>
    match page address with
    | .error failure => ([address], .error failure)
    | .ok p =>
      match p.schedules.find? (·.isWanted schedule) with
      | some l => ([address], .ok l)
      | none =>
        match p.next with
        | some next =>
          if next.isEmpty then ([address], .error (s.notFound schedule))
          else
            let (asked, result) := s.search page schedule left next
            (address :: asked, result)
        | none => ([address], .error (s.notFound schedule))

/-- **The roster of a schedule**, and the pages that were asked for. -/
def current (s : Source) (network : Network) (time : Time.Timestamp)
    (schedule : Config.Schedule) : List String × Except Failure Snapshot :=
  let (asked, result) := s.search (s.page network) schedule maxPages s.start
  (asked, result.map (·.snapshot schedule time))

end Source

end Rota.Roster
