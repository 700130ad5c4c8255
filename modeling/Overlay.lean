import Overlay.Filter.Peer
import Overlay.Main
import Overlay.Proofs.Block.HelloUrl
import Overlay.Proofs.Block.Publish
import Overlay.Proofs.Filter.Delivery
import Overlay.Proofs.Record
import Overlay.Proofs.Store.Agreement
import Overlay.Proofs.Store.Blocks
import Overlay.Text.Quoted
import Overlay.Proofs.Cli.Stored
import Overlay.Proofs.Admission
import Overlay.Proofs.Block.SignedData
import Overlay.Proofs.Json.Reading
import Overlay.Proofs.Json.Text
import Overlay.Proofs.Json.Number
import Overlay.Proofs.Json.Items
import Overlay.Proofs.Json.Record
import Overlay.Proofs.Files.ReadBack
import Overlay.Proofs.Config
import Overlay.Proofs.Query.Recall
import Overlay.Proofs.Filter.Merge
import Overlay.Proofs.Store.Approximate
import Overlay.Proofs.Record.Damage
import Overlay.Proofs.Block.HelloSigning
import Overlay.Proofs.Store.Damage
import Overlay.Proofs.Cli.Frame
import Overlay.Proofs.Distance
import Overlay.Proofs.Text.Percent.Faults
import Overlay.Proofs.KeyText
import Overlay.Proofs.KeyFile
import Overlay.Proofs.Cli.Table
import Overlay.Proofs.Time.Arithmetic
import Overlay.Proofs.Cli.Restart
