import FlightLink.Log.Control
import FlightLink.Log.Listener
import FlightLink.Proofs.Clock.Counting
import FlightLink.Proofs.EndToEnd
import FlightLink.Proofs.Log.Conservation
import FlightLink.Proofs.Log.Containment
import FlightLink.Proofs.Log.Provenance
import FlightLink.Proofs.Log.Representation
import FlightLink.Station
import FlightLink.Proofs.Clock.History
import FlightLink.Proofs.Clock.Noninterference
import FlightLink.Proofs.Clock.Peers
import FlightLink.Proofs.Log.Writing
import FlightLink.Proofs.Wire.Truncation
import FlightLink.Proofs.Clock.Pacing
import FlightLink.Proofs.Isolation
import FlightLink.Proofs.Log.Registration
import FlightLink.Proofs.Log.Succession
import FlightLink.Proofs.Log.Grammar
import FlightLink.Proofs.Log.Boundary
import FlightLink.Proofs.Log.FileHeader
import FlightLink.Proofs.Log.Canonical
import FlightLink.Proofs.Clock.Accuracy
import FlightLink.Proofs.Log.Subscription
import FlightLink.Proofs.Clock.Advances
import FlightLink.Proofs.Clock.Locking
import FlightLink.Proofs.Log.Shortage
import FlightLink.Proofs.Log.Definitions
