-- The three support files that go with every bundle. Node functions call what
-- they define by name.
import Flowscript.Bundle.File
import Flowscript.Options
import Flowscript.Support.Context
import Flowscript.Support.Request
import Flowscript.Support.Storage

namespace Flowscript.Support

/-- The lines of the general support file, with the rate limiter where it is wanted. -/
def generalLines (c : Choices) : List String :=
  if c.includeRateLimiting then contextLines ++ rateLimitLines else contextLines

/-- A support file with the given lines. -/
def file (name description : String) (lines : List String) : BundleFile where
  name := name
  content := Text.joinLines lines ++ "\n"
  description := some description

/-- The support files, in the order of the bundle. -/
def files (c : Choices) : List BundleFile := [
  file "RuntimeHelpers.js" "Runtime utility functions" (generalLines c),
  file "HttpHelpers.js" "HTTP request utilities" requestLines,
  file "StorageHelpers.js" "Key/value storage and deduplication" storageLines]

end Flowscript.Support
