import AoclLibmem.Strings.StrcmpAvx2Safety
import AoclLibmem.Strings.StrcmpAvx512Safety
import AoclLibmem.Strings.ScanAvx512Correct
import AoclLibmem.Strings.ScanAvx2Correct
import AoclLibmem.Strings.StrstrAvx2Correct
import AoclLibmem.Strings.StrstrAvx512Correct
import AoclLibmem.Copy.MemmoveAvx2
import AoclLibmem.Copy.MemcpyZen4
import AoclLibmem.Copy.MemcpyAvx512
import AoclLibmem.Copy.MemcpyAvx512Erms
import AoclLibmem.Dispatch.ParserVocabulary
import AoclLibmem.Dispatch.RejectedTunable
import AoclLibmem.Tunable.ThresholdChoice
import AoclLibmem.Compare.MemcmpErms
import AoclLibmem.Compare.MemcmpAvx2
import AoclLibmem.Compare.MemcmpZen4
import AoclLibmem.Compare.MemcmpTunable
import AoclLibmem.Strings.StrncpyAvx2Safety
import AoclLibmem.Copy.LegalAccess
import AoclLibmem.Strings.StrcmpCorrect
import AoclLibmem.Strings.StrcmpZen4Correct
import AoclLibmem.Strings.StrnlenAvx2Correct
import AoclLibmem.Strings.StrnlenAvx512Correct
import AoclLibmem.Search.MemchrAvx2
import AoclLibmem.Search.MemchrAvx512
import AoclLibmem.Copy.MemcpyAvx2
import AoclLibmem.Strings.StrncpyAvx2Correct
import AoclLibmem.Strings.StrncpyAvx512Correct
import AoclLibmem.Strings.Strcat
import AoclLibmem.Strings.StrspnCorrect
import AoclLibmem.Fill.MemsetAvx2
import AoclLibmem.Fill.MemsetZmm
import AoclLibmem.Compare.TunableMemcmpAvx512
import AoclLibmem.Copy.MemmoveErms
import AoclLibmem.Copy.BlockLoops
import AoclLibmem.Copy.TunableVariants
import AoclLibmem.Copy.SmallMovers
import AoclLibmem.Strings.CandidateFilter
import AoclLibmem.Calls.ObjectRuns
import AoclLibmem.Dispatch.InForce
import AoclLibmem.Validator.Agreement
import AoclLibmem.Validator.MemoryValidatorsCorrect
