import PodDesk.Document.Whole
import PodDesk.Json.Printer

/-!
# The interface description as a program

Prints the interface description of the service, for tools that generate clients.
-/

/-- `main` prints `Document.toJson` on one line. -/
def main : IO Unit :=
  IO.println PodDesk.Document.toJson.render
