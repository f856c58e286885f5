import DialogModel.Model
import DialogModel.Section

/-!
# Imported documents

A link to a web address is probed and filed in the knowledge base: as a page if its content type
says so, else as a document under the description of the link.  Every other path is a local file
and is left to the caller.  A path that has been filed is not filed again.
-/

namespace DialogModel.ImportLink

/-- The failure to reach an address. -/
structure Unreachable where
  uri : String
  reason : String
  deriving DecidableEq, Repr

instance : Cause Unreachable where
  code _ := .invalidUri
  message u := s!"URI '{u.uri}' appears to be invalid: {u.reason}"

/-- Whether a path is a web address. -/
def isWebAddress (path : String) : Bool :=
  let cs := Chars.lower path.toList
  (Chars.after? "http://".toList cs).isSome || (Chars.after? "https://".toList cs).isSome

/-- Whether a content type is that of a web page. -/
def isPage (contentType : String) : Bool :=
  Chars.hasInfix "text/html".toList (Chars.lower contentType.toList)

/-- Files an address by its content type. -/
def file (link : ImportLink) (contentType : String) (kb : KnowledgeBase) : KnowledgeBase :=
  if isPage contentType then kb.addUrl link.path
  else kb.addFile { uri := link.path, name := link.description }

/-- Takes a link into the model. -/
def apply (probe : Probe) (link : ImportLink) (m : Model) : Except Failure Model :=
  if isWebAddress link.path then
    match probe link.path with
    | .ok contentType => .ok { m with kb := link.file contentType m.kb }
    | .error reason => .error (link.prov.failure (Unreachable.mk link.path reason))
  else .ok { m with additionalFiles := FirstSeen.add m.additionalFiles link.path }

end DialogModel.ImportLink
