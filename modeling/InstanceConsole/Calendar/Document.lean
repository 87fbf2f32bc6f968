import InstanceConsole.Calendar.Timestamp
import InstanceConsole.Json.Value

/-!
# Dates and timestamps in documents
-/

set_option autoImplicit false

namespace InstanceConsole

def Date.toJson (d : Date) : Json := .text d.text

def Date.ofJson? (j : Json) : Option Date := j.text?.bind Date.ofText?

def Timestamp.toJson (t : Timestamp) : Json := .text t.text

def Timestamp.ofJson? (j : Json) : Option Timestamp := j.text?.bind Timestamp.ofText?

end InstanceConsole
