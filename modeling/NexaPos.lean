import NexaPos.Properties.StockLedger
import NexaPos.Properties.Transfers
import NexaPos.Properties.Counts
import NexaPos.Properties.Payments
import NexaPos.Properties.Receivables
import NexaPos.Properties.Voids
import NexaPos.Properties.Refunds
import NexaPos.Properties.Returns
import NexaPos.Properties.Invoices
import NexaPos.Properties.Retries
import NexaPos.Properties.RecurringExpenses
import NexaPos.Properties.RestoreOnce
import NexaPos.Properties.TenantLease
import NexaPos.Properties.SafetyCopies
import NexaPos.Properties.RestoreOutcome
import NexaPos.Properties.BackupOwner
import NexaPos.Properties.TrackedObjects
import NexaPos.Properties.StaleBackups
import NexaPos.Properties.Drawers
import NexaPos.Properties.Payables
import NexaPos.Properties.Cheques
import NexaPos.Properties.PieceCaps
import NexaPos.Properties.Payroll
import NexaPos.Properties.SaleTotals
import NexaPos.Properties.InvoiceReceivables
import NexaPos.Properties.ProfitReports
import NexaPos.Properties.SubscriptionReversals
import NexaPos.Properties.ZipTiling
import NexaPos.Properties.PackageReadable
import NexaPos.Properties.DecryptedStream
import NexaPos.Properties.RetentionSafety
import NexaPos.Properties.FabricHistory
import NexaPos.Properties.InclusivePrices
import NexaPos.Properties.AverageCost
import NexaPos.Properties.BookedProfit
import NexaPos.Properties.ReturnedSales
import NexaPos.Properties.DispatchRecovery
import NexaPos.Properties.MediaPublication
import NexaPos.Backups.EncryptedArtifact
import NexaPos.Properties.DailySchedule
import NexaPos.Properties.CanonicalEncoding
import NexaPos.Properties.CanonicalFixedPoint
import NexaPos.Properties.ExactDecimals
import NexaPos.Properties.ComponentOrder
import NexaPos.Backups.S3Upload
import NexaPos.Properties.ObjectUploads
import NexaPos.Properties.ProjectedExpenses
import NexaPos.Lib.StepLog
import NexaPos.Properties.CustomerImports
import NexaPos.Properties.ObjectDeletion
import NexaPos.Properties.ObjectFrames
import NexaPos.Backups.Reattestation
import NexaPos.Properties.StoredObjects
import NexaPos.Properties.ProviderRuns
import NexaPos.Properties.RecoveredObjects
import NexaPos.Properties.RewrappedKeys
import NexaPos.Properties.RecoveredBackups
import NexaPos.Subscriptions.FeatureRegistry
import NexaPos.Subscriptions.Entitlements
import NexaPos.Subscriptions.Access
import NexaPos.Properties.Entitlements
import NexaPos.Properties.Authorization
