import CouponIssuance.Table.Sharded
import CouponIssuance.Text.Blank
import CouponIssuance.Json.Value
import CouponIssuance.Json.Reader
import CouponIssuance.Catalog
import CouponIssuance.Ledger
import CouponIssuance.CouponBook
import CouponIssuance.Mint
import CouponIssuance.Status.Wait
import CouponIssuance.TicketIndex
import CouponIssuance.Worker
import CouponIssuance.Settings.CommandLine
import CouponIssuance.Server
import CouponIssuance.Api.Form
import CouponIssuance.Api.Answer
import CouponIssuance.Http.Message
import CouponIssuance.Http.Target
import CouponIssuance.Http.MediaType
import CouponIssuance.Http.Router
import CouponIssuance.Main
import CouponIssuance.Proofs.CouponBook
import CouponIssuance.Proofs.CouponBook.History
import CouponIssuance.Proofs.Discount
import CouponIssuance.Proofs.Ledger
import CouponIssuance.Proofs.Queue
import CouponIssuance.Proofs.Status
import CouponIssuance.Proofs.Status.Action
import CouponIssuance.Proofs.Stores.Dispatch
import CouponIssuance.Proofs.Run
import CouponIssuance.Proofs.Service.Move
import CouponIssuance.Proofs.Service.Invariance
import CouponIssuance.Proofs.Service.Effect
import CouponIssuance.Proofs.StockConservation
import CouponIssuance.Proofs.OneWin
import CouponIssuance.Proofs.Preview
import CouponIssuance.Proofs.LiveTicket
import CouponIssuance.Proofs.FirstComeFirstServed
import CouponIssuance.Proofs.NoDrift
import CouponIssuance.Proofs.NoEndMissed
import CouponIssuance.Proofs.RecordsAndCoupons
import CouponIssuance.Proofs.RequestLife
import CouponIssuance.Proofs.SoldOut
import CouponIssuance.Proofs.SpentOnce
import CouponIssuance.Proofs.Desk
import CouponIssuance.Proofs.Windows
import CouponIssuance.Proofs.Http.Reasons
import CouponIssuance.Proofs.Status.Agreement
import CouponIssuance.Proofs.Service.Twin
import CouponIssuance.Proofs.Service.Answers
import CouponIssuance.Proofs.Sweeping
import CouponIssuance.Proofs.RefusedAdmission
import CouponIssuance.Proofs.Floor
import CouponIssuance.Proofs.IdleResets
import CouponIssuance.Proofs.Stopping
import CouponIssuance.Proofs.Shutdown
import CouponIssuance.Proofs.Floor.Turn
import CouponIssuance.Proofs.Sharding
import CouponIssuance.Proofs.Registration
import CouponIssuance.Proofs.AttemptedOnce
import CouponIssuance.Proofs.Status.Watching
import CouponIssuance.Proofs.LastLook
import CouponIssuance.Proofs.Ledger.History
import CouponIssuance.Proofs.Availability
import CouponIssuance.Proofs.Text.Splitting
import CouponIssuance.Proofs.Text.Decimal
import CouponIssuance.Proofs.Text.Sign
import CouponIssuance.Proofs.Settings.SeedList
import CouponIssuance.Proofs.StartUp
import CouponIssuance.Proofs.Json.Decoding
import CouponIssuance.Proofs.Json.Grammar
import CouponIssuance.Proofs.Json.Reading
import CouponIssuance.Proofs.Json.Records
import CouponIssuance.Proofs.Api.Terms
import CouponIssuance.Proofs.Api.ReadBack
