import Rota.Text.Search

/-!
# Message texts

Two rules about the wording of notifications. `fillSchedule` puts the name of
a schedule into a template. `Incident.decorate` adds the affected instance to
the text of an alert.
-/

namespace Rota.Message

/-- What stands for the name of the schedule in a template. -/
def placeholder : List Char := "\x7bschedule\x7d".toList

/-- **Fill a template**: every placeholder becomes the name, which is not
looked at again. -/
def fillSchedule (template schedule : String) : String :=
  String.ofList (Text.replaceAll placeholder schedule.toList template.toList)

/-- What follows the alert in a message that names the channel of the alert. -/
def channelMark : List Char := ", alert channel".toList

/-- **What is known of an incident** besides the text of its alert. -/
structure Incident where
  /-- The id under which the alert is known to its sender. -/
  alertId : Option String := none
  /-- The affected host or service. -/
  host : Option String := none
  deriving DecidableEq, Repr, Inhabited

/-- **Add the instance to a message**: before the first mention of the channel
of the alert, or else in brackets at the end. -/
def Incident.decorate (incident : Incident) (message : String) : String :=
  match incident.host with
  | none => message
  | some name =>
    if name.isEmpty then message
    else match Text.breakOn channelMark message.toList with
      | some (before, after) =>
        String.ofList (before ++ " on ".toList ++ name.toList ++ after)
      | none => message ++ " (instance: " ++ name ++ ")"

end Rota.Message
