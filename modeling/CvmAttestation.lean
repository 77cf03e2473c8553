import CvmAttestation.BaseBase64
import CvmAttestation.BaseBits
import CvmAttestation.BaseBytes
import CvmAttestation.BaseControl
import CvmAttestation.BaseForm
import CvmAttestation.BaseHkdf
import CvmAttestation.BaseJson
import CvmAttestation.BaseJsonDoc
import CvmAttestation.BaseJsonText
import CvmAttestation.BaseJsonTree
import CvmAttestation.BaseLedger
import CvmAttestation.BaseMask
import CvmAttestation.BaseNumeral
import CvmAttestation.BaseOccurrence
import CvmAttestation.BaseRetry
import CvmAttestation.BaseRounds
import CvmAttestation.BaseSplit
import CvmAttestation.BaseStream
import CvmAttestation.BaseUrl
import CvmAttestation.BaseUtf8
import CvmAttestation.ClientAkCert
import CvmAttestation.ClientAttest
import CvmAttestation.ClientContract
import CvmAttestation.ClientEncoders
import CvmAttestation.ClientEvidence
import CvmAttestation.ClientImds
import CvmAttestation.ClientJson
import CvmAttestation.ClientJsonReader
import CvmAttestation.ClientJsonRequest
import CvmAttestation.ClientJsonRoundTrip
import CvmAttestation.ClientJsonWriter
import CvmAttestation.ClientJwk
import CvmAttestation.ClientJwt
import CvmAttestation.ClientLifecycle
import CvmAttestation.ClientPayload
import CvmAttestation.ClientPem
import CvmAttestation.ClientSend
import CvmAttestation.ClientToken
import CvmAttestation.ClientTransport
import CvmAttestation.ClientUrl
import CvmAttestation.ClientVersion
import CvmAttestation.HclReport
import CvmAttestation.ReleaseBatch
import CvmAttestation.ReleaseBody
import CvmAttestation.ReleaseQuery
import CvmAttestation.ReleaseRequest
import CvmAttestation.ReleaseResponse
import CvmAttestation.ReleaseToken
import CvmAttestation.ReleaseWrap
import CvmAttestation.SecretsConvert
import CvmAttestation.SecretsCopies
import CvmAttestation.SecretsCreate
import CvmAttestation.SecretsErrors
import CvmAttestation.SecretsGcm
import CvmAttestation.SecretsHandles
import CvmAttestation.SecretsHistory
import CvmAttestation.SecretsHkdf
import CvmAttestation.SecretsLog
import CvmAttestation.SecretsMachine
import CvmAttestation.SecretsOssl
import CvmAttestation.SecretsOutcome
import CvmAttestation.SecretsOwnership
import CvmAttestation.SecretsParse
import CvmAttestation.SecretsPolicy
import CvmAttestation.SecretsProtect
import CvmAttestation.SecretsRelease
import CvmAttestation.SecretsSmbios
import CvmAttestation.SecretsSubject
import CvmAttestation.SecretsToken
import CvmAttestation.SecretsTss2
import CvmAttestation.SecretsUnprotect
import CvmAttestation.SecretsWide
import CvmAttestation.SecretsWithhold
import CvmAttestation.ToolArgs
import CvmAttestation.ToolOutput
import CvmAttestation.TpmAikCert
import CvmAttestation.TpmAikParts
import CvmAttestation.TpmEk
import CvmAttestation.TpmEkPublic
import CvmAttestation.TpmEphemeral
import CvmAttestation.TpmEvidence
import CvmAttestation.TpmNv
import CvmAttestation.TpmNvReaders
import CvmAttestation.TpmObjects
import CvmAttestation.TpmPcr
import CvmAttestation.TpmPcrCount
import CvmAttestation.TpmPcrEntries
import CvmAttestation.TpmPcrMoments
import CvmAttestation.TpmPolicy
import CvmAttestation.TpmReopen
import CvmAttestation.TpmRounds
import CvmAttestation.TpmTransient
