/-
# The report as data

The report for other tools is an object with the manifest, whether it is up to
date, and the added and removed resources. An added resource has the file that
declares it, if that is known.
-/

import OverlayManifest.Drift
import OverlayManifest.Json

namespace OverlayManifest.Report.Json

open OverlayManifest.Json (Value)

/-- The version of the program that writes reports. -/
def version : String := "0.1.0"

/-- A resource as an object. -/
def resourceValue (resource : Resource) (origin : Option String) : Value :=
  .object ([("type", .text resource.type), ("name", .text resource.name)] ++
    (origin.map fun file => ("origin", .text file)).toList)

/-- The report on the drift of a manifest. -/
def value (drift : Drift) (manifest : String) (origin : Resource → Option String) : Value :=
  .object
    [("version", .text version),
      ("manifest", .text manifest),
      ("up_to_date", .truth drift.isUpToDate),
      ("added", .list (drift.added.map fun resource => resourceValue resource (origin resource))),
      ("removed", .list (drift.removed.map fun resource => resourceValue resource none))]

/-- The text of the report. -/
def render (drift : Drift) (manifest : String) (origin : Resource → Option String) : List Char :=
  (value drift manifest origin).render 0

end OverlayManifest.Report.Json
