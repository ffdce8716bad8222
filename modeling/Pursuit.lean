import Pursuit.Behavior.Script
import Pursuit.Main
import Pursuit.Proofs.Behavior.Leaves
import Pursuit.Proofs.Behavior.Machine
import Pursuit.Proofs.Behavior.InFlight
import Pursuit.Proofs.Behavior.Nesting
import Pursuit.Proofs.Behavior.Calls
import Pursuit.Proofs.Behavior.Visits
import Pursuit.Proofs.Behavior.Answering
import Pursuit.Proofs.Behavior.ShortCircuit
import Pursuit.Proofs.Behavior.Orderly
import Pursuit.Proofs.Behavior.Cadence
import Pursuit.Proofs.Binary.Unpacked
import Pursuit.Proofs.Chase.Courses
import Pursuit.Proofs.Arena.Cheese
import Pursuit.Proofs.Arena.Orders
import Pursuit.Proofs.Chase.Turns
import Pursuit.Proofs.Chase.Frames
import Pursuit.Proofs.Chase.Safety
import Pursuit.Proofs.Chase.Catch
import Pursuit.Proofs.Chase.Outcome
import Pursuit.Proofs.Chase.Stock
import Pursuit.Proofs.Chase.Deeds
import Pursuit.Proofs.Chase.Lockstep
import Pursuit.Proofs.Chase.Chain
import Pursuit.Proofs.Binary.Rounding
import Pursuit.Proofs.Binary.Canonical
import Pursuit.Proofs.Binary.Packing
import Pursuit.Proofs.Binary.Arithmetic
import Pursuit.Proofs.Binary.Values
import Pursuit.Proofs.Binary.Waves
import Pursuit.Proofs.Plane.Square
import Pursuit.Proofs.Random.Draws
import Pursuit.Proofs.Chase.Grounds
import Pursuit.Proofs.Chase.Choice
import Pursuit.Proofs.Binary.Identity
import Pursuit.Proofs.Decimal.Cell
import Pursuit.Proofs.Decimal.Shortest
import Pursuit.Proofs.Decimal.Reader
import Pursuit.Proofs.Decimal.Layout
import Pursuit.Proofs.Toml.Number
import Pursuit.Proofs.Toml.Quotation
import Pursuit.Proofs.Toml.Lines
import Pursuit.Proofs.Toml.Assembly
import Pursuit.Proofs.Toml.Document
import Pursuit.Proofs.Settings.Codec
import Pursuit.Proofs.Settings.Schema
import Pursuit.Proofs.Files.Disk
import Pursuit.Proofs.Settings.Store
import Pursuit.Proofs.Chase.Budget
import Pursuit.Proofs.Chase.Seeds
import Pursuit.Proofs.Arena.Travel
import Pursuit.Proofs.Chase.Confined
import Pursuit.Proofs.Behavior.Outside
import Pursuit.Proofs.Behavior.Duals
import Pursuit.Proofs.Behavior.Reshaping
import Pursuit.Proofs.Chase.Stutter
import Pursuit.Proofs.Binary.Amounts
import Pursuit.Proofs.Behavior.Retry
import Pursuit.Proofs.Behavior.Footprint
import Pursuit.Proofs.Chase.Footprints
import Pursuit.Proofs.Chase.Round
import Pursuit.Proofs.Chase.Clock
import Pursuit.Proofs.Chase.Spoiled
import Pursuit.Proofs.Plane.Rounded
import Pursuit.Proofs.Arena.Heading
import Pursuit.Proofs.Chase.Headings
import Pursuit.Proofs.Arena.Arrival
import Pursuit.Proofs.Arena.Outlook
import Pursuit.Proofs.Plane.Segment
import Pursuit.Proofs.Binary.Ranks
import Pursuit.Proofs.Binary.Arccosine
import Pursuit.Proofs.Arena.Nearest
import Pursuit.Proofs.Arena.Panorama
import Pursuit.Proofs.Chase.Reached
import Pursuit.Proofs.Chase.Redraws
import Pursuit.Proofs.Binary.Endless
import Pursuit.Proofs.Arena.Nowhere
import Pursuit.Proofs.Settings.Precedence
import Pursuit.Proofs.Toml.Deletion
import Pursuit.Proofs.Settings.Partial
import Pursuit.Proofs.Files.Path
import Pursuit.Proofs.Files.Following
import Pursuit.Proofs.Files.Sound
import Pursuit.Proofs.Files.Directories
import Pursuit.Proofs.Settings.Saving
import Pursuit.Proofs.Toml.Range
import Pursuit.Proofs.Settings.Showing
import Pursuit.Proofs.Arena.Enclosure
import Pursuit.Proofs.Command.Pacing
