import EyeMaps.Framework.Document
import EyeMaps.Framework.Hex
import EyeMaps.Framework.Latch
import EyeMaps.Framework.Lists
import EyeMaps.Framework.Machine
import EyeMaps.Framework.Network
import EyeMaps.Framework.RateLimit
import EyeMaps.Framework.RigidMotion
import EyeMaps.Framework.Triple
import EyeMaps.Framework.Window
import EyeMaps.Model.App
import EyeMaps.Model.Catalogue
import EyeMaps.Model.Clock
import EyeMaps.Model.Controls
import EyeMaps.Model.CustomARView
import EyeMaps.Model.FieldPath
import EyeMaps.Model.FieldValue
import EyeMaps.Model.FirestoreDecoder
import EyeMaps.Model.FirestoreEncoder
import EyeMaps.Model.FirestoreObject
import EyeMaps.Model.Fleet
import EyeMaps.Model.FocusEntity
import EyeMaps.Model.FocusSquare
import EyeMaps.Model.Location
import EyeMaps.Model.Nearby
import EyeMaps.Model.Scene
import EyeMaps.Model.StoredFleet
import EyeMaps.Model.UserDataConverter
import EyeMaps.Model.WorldMap
import EyeMaps.Properties.AddSession
import EyeMaps.Properties.BeaconOrder
import EyeMaps.Properties.BeaconQueue
import EyeMaps.Properties.BeaconStarts
import EyeMaps.Properties.CoolDown
import EyeMaps.Properties.CoordinateArrays
import EyeMaps.Properties.Delivery
import EyeMaps.Properties.DocumentDecoding
import EyeMaps.Properties.DocumentRoundTrip
import EyeMaps.Properties.Documents
import EyeMaps.Properties.Durability
import EyeMaps.Properties.FieldPaths
import EyeMaps.Properties.FocusAlignment
import EyeMaps.Properties.FocusAppearance
import EyeMaps.Properties.FocusReports
import EyeMaps.Properties.FocusUpdates
import EyeMaps.Properties.Guidance
import EyeMaps.Properties.InitialAnchor
import EyeMaps.Properties.LoadButton
import EyeMaps.Properties.Merge
import EyeMaps.Properties.NearbyMaps
import EyeMaps.Properties.OneBeacon
import EyeMaps.Properties.OpenView
import EyeMaps.Properties.OpenedRow
import EyeMaps.Properties.Pairing
import EyeMaps.Properties.ParsedData
import EyeMaps.Properties.Presses
import EyeMaps.Properties.Provenance
import EyeMaps.Properties.ReadBack
import EyeMaps.Properties.Replay
import EyeMaps.Properties.RoundTrip
import EyeMaps.Properties.RouteIsolation
import EyeMaps.Properties.Snapshots
import EyeMaps.Properties.StableMerge
import EyeMaps.Properties.StoredFleet
import EyeMaps.Properties.WorldMapData
