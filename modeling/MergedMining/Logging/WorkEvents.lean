import MergedMining.Logging.Event
import MergedMining.MergedHeader

/-!
# What a verdict tells the log

A rejected header is reported with its reason, an accepted merge-mined header without one.  A header
accepted for its own work is not worth an event.
-/

namespace MergedMining.MergedHeader

/-- The part of the program that judges headers. -/
def workTarget : String := "auxpow_verification::pow"

/-- The events of checking a header. -/
def workEvents (h : MergedHeader) (params : Params) : List Logging.Event :=
  match h.checkWork params with
  | .error reason =>
      [⟨.debug, workTarget, "rejected header proof-of-work",
        [("blkid", .text h.hash.short), ("version", .number (Version.signed h.header.version)),
         ("reason", .text reason.message)]⟩]
  | .ok () =>
      if (h.fields params.layout).merged then
        [⟨.trace, workTarget, "accepted merge-mined header", [("blkid", .text h.hash.short)]⟩]
      else []

end MergedMining.MergedHeader
