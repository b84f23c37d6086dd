import WxcodeAdm.Guarantees.AdminLineage
import WxcodeAdm.Guarantees.AuditPages
import WxcodeAdm.Guarantees.AutoJoin
import WxcodeAdm.Guarantees.BackupCodes
import WxcodeAdm.Guarantees.BillingPeriod
import WxcodeAdm.Guarantees.ClaudeTokenSecrecy
import WxcodeAdm.Guarantees.DashboardTotals
import WxcodeAdm.Guarantees.DeclaredErrors
import WxcodeAdm.Guarantees.DoubleSpend
import WxcodeAdm.Guarantees.Enumeration
import WxcodeAdm.Guarantees.InvitationsOnce
import WxcodeAdm.Guarantees.Inviting
import WxcodeAdm.Guarantees.MfaArtefacts
import WxcodeAdm.Guarantees.MrrTrend
import WxcodeAdm.Guarantees.OneAddress
import WxcodeAdm.Guarantees.OtpGuesses
import WxcodeAdm.Guarantees.OverageUnit
import WxcodeAdm.Guarantees.OwnershipRace
import WxcodeAdm.Guarantees.PaidCheckout
import WxcodeAdm.Guarantees.PasswordOrigin
import WxcodeAdm.Guarantees.PendingFormats
import WxcodeAdm.Guarantees.PendingTransfer
import WxcodeAdm.Guarantees.RefreshSession
import WxcodeAdm.Guarantees.ResetTrust
import WxcodeAdm.Guarantees.Revocation
import WxcodeAdm.Guarantees.RoleEscalation
import WxcodeAdm.Guarantees.SecondFactor
import WxcodeAdm.Guarantees.SessionOrder
import WxcodeAdm.Guarantees.SignOut
import WxcodeAdm.Guarantees.SilentRefresh
import WxcodeAdm.Guarantees.TokenRefresh
import WxcodeAdm.Guarantees.TotpOnce
import WxcodeAdm.Guarantees.VerifiedAddress
import WxcodeAdm.Guarantees.WebhookPipeline
import WxcodeAdm.Guarantees.WorkspaceSlug
