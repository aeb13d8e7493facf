import TokenHoldem.Domain.DealerRotation
import TokenHoldem.Domain.JoinQueue
import TokenHoldem.Domain.PublicDigest
import TokenHoldem.Domain.Finality
import TokenHoldem.Domain.SidePots
import TokenHoldem.Domain.TableStack
import TokenHoldem.Domain.Termination
import TokenHoldem.MentalPoker.Transcript
import TokenHoldem.Network.ConnectionLease
import TokenHoldem.Network.SignedDocuments
import TokenHoldem.Scripts.NodeCacheLock
import TokenHoldem.Sidecar.ArchiveSync
import TokenHoldem.Sidecar.Convergence
import TokenHoldem.Sidecar.EventStream
import TokenHoldem.Sidecar.HandRuntime.Disclosure
import TokenHoldem.Sidecar.HandRuntime.Log
import TokenHoldem.Sidecar.HandRuntime.Starting
import TokenHoldem.Sidecar.HandRuntime.StateView
import TokenHoldem.Sidecar.ReceiptAgreement
import TokenHoldem.Sidecar.SafeLeave
import TokenHoldem.Sidecar.TableSession.ReadyTables
import TokenHoldem.Sidecar.TableSession.Rejoining
import TokenHoldem.Sidecar.TableSession.Succession
import TokenHoldem.Ui.HandEvents
import TokenHoldem.Ui.SessionProjection
