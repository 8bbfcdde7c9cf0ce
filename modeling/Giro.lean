import Giro.Database.ClosedPool
import Giro.Database.Connect
import Giro.Json.Record
import Giro.Log.Logger
import Giro.Proofs.Atomicity
import Giro.Proofs.Schedule
import Giro.Proofs.Serial
import Giro.Request
import Giro.Session
import Giro.Proofs.Pairing
import Giro.Proofs.Protocol
import Giro.Proofs.History
import Giro.Proofs.RowLock
import Giro.Proofs.Reference
import Giro.Proofs.Publication
import Giro.Proofs.Erasure
import Giro.Proofs.Replay
import Giro.Proofs.Neutral
import Giro.Proofs.RowOrder
import Giro.Proofs.Staging
import Giro.Proofs.Settings
import Giro.Proofs.Calendar
import Giro.Proofs.Digits
import Giro.Proofs.InstantText
import Giro.Proofs.JsonText
import Giro.Proofs.JsonRecord
import Giro.Proofs.Words
