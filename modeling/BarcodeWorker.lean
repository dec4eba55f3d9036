import BarcodeWorker.Traced
import BarcodeWorker.RowLoop
import BarcodeWorker.Raster
import BarcodeWorker.Arrow
import BarcodeWorker.Crates
import BarcodeWorker.Barcoding
import BarcodeWorker.ReferenceCrates
import BarcodeWorker.DecodeGuard
import BarcodeWorker.Generation
import BarcodeWorker.Scalar
import BarcodeWorker.ColumnLoop
import BarcodeWorker.DecodeScalar
import BarcodeWorker.GenerateScalar
import BarcodeWorker.BindAgreement
import BarcodeWorker.SizeArgument
import BarcodeWorker.OffsetLimit
import BarcodeWorker.RoundTrip
import BarcodeWorker.Producer
import BarcodeWorker.Table
import BarcodeWorker.DecodeTable
import BarcodeWorker.JsonGrammar
import BarcodeWorker.Metadata
import BarcodeWorker.RowFunction
import BarcodeWorker.Worker
import BarcodeWorker.ScalarMeaning
import BarcodeWorker.ScanLaws
import BarcodeWorker.NestedCalls
import BarcodeWorker.ReadBack
import BarcodeWorker.Protocol
import BarcodeWorker.Session
import BarcodeWorker.CallRounds
import BarcodeWorker.SafeSession
import BarcodeWorker.Catalog
import BarcodeWorker.Interface
import BarcodeWorker.Interleaving
import BarcodeWorker.Reordering
import BarcodeWorker.Clients
