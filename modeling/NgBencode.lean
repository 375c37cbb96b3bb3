import NgBencode.Str
import NgBencode.Int
import NgBencode.Parse
import NgBencode.Grammar
import NgBencode.Soundness
import NgBencode.Completeness
import NgBencode.Request
import NgBencode.Wire
import NgBencode.Validate
import NgBencode.Variations
import NgBencode.Utf8Decode
import NgBencode.Json
import NgBencode.JsonRoundtrip
import NgBencode.JsonWire
import NgBencode.Health
import NgBencode.Sre
import NgBencode.Digest
import NgBencode.SessionLimits
import NgBencode.SipReplies
