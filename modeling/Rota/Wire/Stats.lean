import Rota.Directory.Table
import Rota.Relay.System
import Rota.Wire.Roster

/-!
# Counts and reports in JSON
-/

namespace Rota

/-- The counts of the queue. -/
def Relay.System.queueStats (s : Relay.System) : Json :=
  .record [("enqueued", .number s.counts.enqueued), ("rejected", .number s.counts.rejected),
    ("delivered", .number s.counts.delivered), ("failed", .number s.counts.failed),
    ("pending", .number s.queue.pending), ("capacity", .number s.queue.capacity)]

/-- The counts of the audit records. -/
def Audit.Pipeline.stats (p : Audit.Pipeline) : Json :=
  .record [("written", .number p.written), ("dropped", .number p.dropped),
    ("failed", .number p.failed)]

/-- The counts of the poll cycles. -/
def Poller.Counts.toJson (c : Poller.Counts) : Json :=
  .record [("cycles", .number c.cycles), ("fetched", .number c.fetched),
    ("fetch_failures", .number c.fetchFailures), ("empty_rosters", .number c.emptyRosters),
    ("started", .number c.started), ("ended", .number c.ended),
    ("enqueue_failures", .number c.enqueueFailures)]

/-- The report on a poll cycle. -/
def Poller.Report.toJson (r : Poller.Report) : Json :=
  .record
    [("transitions", .list (r.transitions.map fun (name, t) => .list [.text name, t.toJson])),
      ("failed", .texts r.failed)]

/-- What came of taking over a user list. -/
def Directory.ImportReport.toJson (r : Directory.ImportReport) : Json :=
  .record [("inserted", .number r.inserted), ("updated", .number r.updated),
    ("disabled", .number r.disabled), ("skipped", .number r.skipped)]

end Rota
