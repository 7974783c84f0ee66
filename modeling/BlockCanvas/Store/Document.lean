import BlockCanvas.Request
import BlockCanvas.Store.Moment
import BlockCanvas.Supply
namespace BlockCanvas

-- A stored program as it is handed out.
structure Document where
  draft : Draft
  id : String
  created : Moment
  updated : Moment
deriving DecidableEq

-- Where new identities and times come from.
structure Sources where
  supply : Supply := {}
  clock : Clock := {}

namespace Document

def dump (number : Binary64 → Json) (universalText : String) (document : Document) : Json :=
  .object (document.draft.dumpMembers number ++
    [("id", .text document.id),
      ("created_at", .text (document.created.isoText universalText)),
      ("updated_at", .text (document.updated.isoText universalText))])

def idOrDrawn (members : List (String × Json)) (sources : Sources) : Checked String × Sources :=
  match Rows.find? "id" members with
  | some data => ((Check.text data).under (.member "id"), sources)
  | none =>
      let (id, supply) := sources.supply.draw
      (.accepted id, { sources with supply := supply })

def momentOrNow (name : String) (members : List (String × Json)) (sources : Sources) :
    Checked Moment × Sources :=
  match Rows.find? name members with
  | some data => ((Moment.check data).under (.member name), sources)
  | none =>
      let (now, clock) := sources.clock.read
      (.accepted now, { sources with clock := clock })

-- What is not given is drawn, in the order of the fields, whether or not the rest is sound.
def check (sources : Sources) (data : Json) : Checked Document × Sources :=
  match data with
  | .object members =>
      let (id, sources) := idOrDrawn members sources
      let (created, sources) := momentOrNow "created_at" members sources
      let (updated, sources) := momentOrNow "updated_at" members sources
      (Document.mk <$> Draft.checkMembers .record members <*> id <*> created <*> updated, sources)
  | _ => (.fail (.notRecord "ProgramDocument"), sources)

end Document
end BlockCanvas
