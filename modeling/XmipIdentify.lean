import XmipIdentify.Library.Split
import XmipIdentify.Library.Trim
import XmipIdentify.Library.Str
import XmipIdentify.IdentifyError
import XmipIdentify.Presented
import XmipIdentify.PresentedSecrecy
import XmipIdentify.Principal.User
import XmipIdentify.Principal.ServicePieces
import XmipIdentify.Principal.ServiceName
import XmipIdentify.Principal.ServiceRead
import XmipIdentify.Principal.ServiceCanonical
import XmipIdentify.Library.Transducer
import XmipIdentify.Library.Base64
import XmipIdentify.Codec
import XmipIdentify.Library.Der
import XmipIdentify.Asn1
import XmipIdentify.Kerberos.Ticket
import XmipIdentify.Kerberos.Layout
import XmipIdentify.Kerberos.TicketRead
import XmipIdentify.Kerberos.FieldTypes
import XmipIdentify.Kerberos.ServicePrincipal
import XmipIdentify.Kerberos.Negotiate
import XmipIdentify.Kerberos.Peeling
import XmipIdentify.Library.TailCalls
import XmipIdentify.Kerberos.Calls
import XmipIdentify.Kerberos.Wrapped
import XmipIdentify.Authorization
import XmipIdentify.AuthorizationList
import XmipIdentify.Library.OrderedMap
import XmipIdentify.Library.Binary64
import XmipIdentify.Json
import XmipIdentify.Principal.Name
import XmipIdentify.Jwt
import XmipIdentify.JwtEncoded
import XmipIdentify.JwtAccepted
import XmipIdentify.Saml
import XmipIdentify.JwtClaims
import XmipIdentify.Account
import XmipIdentify.Library.Gather
import XmipIdentify.Gates
import XmipIdentify.Principal.UserForms
import XmipIdentify.Principal.Kinds
import XmipIdentify.Principal.ServiceForms
import XmipIdentify.Principal.LetterCase
import XmipIdentify.JwtMembers
import XmipIdentify.JwtPrincipal
import XmipIdentify.JwtCarried
import XmipIdentify.Broker
import XmipIdentify.Library.Ascii
import XmipIdentify.AuthorizationBasic
import XmipIdentify.Library.Decimal
import XmipIdentify.Library.Calendar
import XmipIdentify.Kerberos.Time
import XmipIdentify.Kerberos.TimeOrder
import XmipIdentify.Library.Cutter
import XmipIdentify.AuthorizationGrammar
import XmipIdentify.AuthorizationHeader
import XmipIdentify.Kerberos.Found
import XmipIdentify.Kerberos.Spelling
import XmipIdentify.JwtNumbers
import XmipIdentify.JwtRead
import XmipIdentify.Library.Settle
import XmipIdentify.Principal.Settles
import XmipIdentify.Library.Agree
import XmipIdentify.Principal.Sameness
import XmipIdentify.Library.TwoPasses
import XmipIdentify.GatesRecord
import XmipIdentify.Kerberos.TimeRange
import XmipIdentify.PrincipalRecord
import XmipIdentify.Library.Hex
import XmipIdentify.Library.Glimpse
import XmipIdentify.Shown
import XmipIdentify.CarriedCase
import XmipIdentify.Library.FirstFault
import XmipIdentify.JwtRefused
