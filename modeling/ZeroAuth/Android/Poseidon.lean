/-
  ZeroAuth.Android.Poseidon

  The Poseidon hash of one and of two field elements, as
  android/.../sec/Poseidon.kt computes it with the tables of PoseidonConstants.kt.
-/

import Mathlib.Algebra.GroupWithZero.Nat
import Mathlib.Data.List.Basic
import Mathlib.Data.Nat.Notation

namespace ZeroAuth.Android

/-! ## Tables -/

namespace PoseidonConstants

/-- The BN254 scalar field modulus. -/
def field : ℕ := 21888242871839275222246405745257275088548364400416034343698204186575808495617

def nRoundsF : ℕ := 8

/-- Partial rounds, by the number of inputs. -/
def nRoundsP : List ℕ := [56, 57, 56, 60, 60, 63, 64, 63, 60, 66, 60, 65, 70, 60, 64, 68]

def cT2 : List ℕ := [
  4417881134626180770308697923359573201005643519861877412381846989312604493735,
  5433650512959517612316327474713065966758808864213826738576266661723522780033,
  13641176377184356099764086973022553863760045607496549923679278773208775739952,
  17949713444224994136330421782109149544629237834775211751417461773584374506783,
  13765628375339178273710281891027109699578766420463125835325926111705201856003,
  19179513468172002314585757290678967643352171735526887944518845346318719730387,
  5157412437176756884543472904098424903141745259452875378101256928559722612176,
  535160875740282236955320458485730000677124519901643397458212725410971557409,
  1050793453380762984940163090920066886770841063557081906093018330633089036729,
  10665495010329663932664894101216428400933984666065399374198502106997623173873,
  19965634623406616956648724894636666805991993496469370618546874926025059150737,
  13007250030070838431593222885902415182312449212965120303174723305710127422213,
  16877538715074991604507979123743768693428157847423939051086744213162455276374,
  18211747749504876135588847560312685184956239426147543810126553367063157141465,
  18151553319826126919739798892854572062191241985315767086020821632812331245635,
  19957033149976712666746140949846950406660099037474791840946955175819555930825,
  3469514863538261843186854830917934449567467100548474599735384052339577040841,
  989698510043911779243192466312362856042600749099921773896924315611668507708,
  12568377015646290945235387813564567111330046038050864455358059568128000172201,
  20856104135605479600325529349246932565148587186338606236677138505306779314172,
  8206918720503535523121349917159924938835810381723474192155637697065780938424,
  1309058477013932989380617265069188723120054926187607548493110334522527703566,
  14076116939332667074621703729512195584105250395163383769419390236426287710606,
  10153498892749751942204288991871286290442690932856658983589258153608012428674,
  18202499207234128286137597834010475797175973146805180988367589376893530181575,
  12739388830157083522877690211447248168864006284243907142044329113461613743052,
  15123358710467780770838026754240340042441262572309759635224051333176022613949,
  19925004701844594370904593774447343836015483888496504201331110250494635362184,
  10352416606816998476681131583320899030072315953910679608943150613208329645891,
  10567371822366244361703342347428230537114808440249611395507235283708966113221,
  5635498582763880627392290206431559361272660937399944184533035305989295959602,
  11866432933224219174041051738704352719163271639958083608224676028593315904909,
  5795020705294401441272215064554385591292330721703923167136157291459784140431,
  9482202378699252817564375087302794636287866584767523335624368774856230692758,
  4245237636894546151746468406560945873445548423466753843402086544922216329298,
  12000500941313982757584712677991730019124834399479314697467598397927435905133,
  7596790274058425558167520209857956363736666939016807569082239187494363541787,
  2484867918246116343205467273440098378820186751202461278013576281097918148877,
  18312645949449997391810445935615409295369169383463185688973803378104013950190,
  15320686572748723004980855263301182130424010735782762814513954166519592552733,
  12618438900597948888520621062416758747872180395546164387827245287017031303859,
  17438141672027706116733201008397064011774368832458707512367404736905021019585,
  6374197807230665998865688675365359100400438034755781666913068586172586548950,
  2189398913433273865510950346186699930188746169476472274335177556702504595264,
  6268495580028970231803791523870131137294646402347399003576649137450213034606,
  17896250365994900261202920044129628104272791547990619503076839618914047059275,
  13692156312448722528008862371944543449350293305158722920787736248435893008873,
  15234446864368744483209945022439268713300180233589581910497691316744177619376,
  1572426502623310766593681563281600503979671244997798691029595521622402217227,
  80103447810215150918585162168214870083573048458555897999822831203653996617,
  8228820324013669567851850635126713973797711779951230446503353812192849106342,
  5375851433746509614045812476958526065449377558695752132494533666370449415873,
  12115998939203497346386774317892338270561208357481805380546938146796257365018,
  9764067909645821279940531410531154041386008396840887338272986634350423466622,
  8538708244538850542384936174629541085495830544298260335345008245230827876882,
  7140127896620013355910287215441004676619168261422440177712039790284719613114,
  14297402962228458726038826185823085337698917275385741292940049024977027409762,
  6667115556431351074165934212337261254608231545257434281887966406956835140819,
  20226761165244293291042617464655196752671169026542832236139342122602741090001,
  12038289506489256655759141386763477208196694421666339040483042079632134429119,
  19027757334170818571203982241812412991528769934917288000224335655934473717551,
  16272152964456553579565580463468069884359929612321610357528838696790370074720,
  2500392889689246014710135696485946334448570271481948765283016105301740284071,
  8595254970528530312401637448610398388203855633951264114100575485022581946023,
  11635945688914011450976408058407206367914559009113158286982919675551688078198,
  614739068603482619581328040478536306925147663946742687395148680260956671871,
  18692271780377861570175282183255720350972693125537599213951106550953176268753,
  4987059230784976306647166378298632695585915319042844495357753339378260807164,
  21851403978498723616722415377430107676258664746210815234490134600998983955497,
  9830635451186415300891533983087800047564037813328875992115573428596207326204,
  4842706106434537116860242620706030229206345167233200482994958847436425185478,
  6422235064906823218421386871122109085799298052314922856340127798647926126490,
  4564364104986856861943331689105797031330091877115997069096365671501473357846,
  1944043894089780613038197112872830569538541856657037469098448708685350671343,
  21179865974855950600518216085229498748425990426231530451599322283119880194955,
  14296697761894107574369608843560006996183955751502547883167824879840894933162,
  12274619649702218570450581712439138337725246879938860735460378251639845671898,
  16371396450276899401411886674029075408418848209575273031725505038938314070356,
  3702561221750983937578095019779188631407216522704543451228773892695044653565,
  19721616877735564664624984774636557499099875603996426215495516594530838681980,
  6383350109027696789969911008057747025018308755462287526819231672217685282429,
  20860583956177367265984596617324237471765572961978977333122281041544719622905,
  5766390934595026947545001478457407504285452477687752470140790011329357286275,
  4043175758319898049344746138515323336207420888499903387536875603879441092484,
  15579382179133608217098622223834161692266188678101563820988612253342538956534,
  1864640783252634743892105383926602930909039567065240010338908865509831749824,
  15943719865023133586707144161652035291705809358178262514871056013754142625673,
  2326415993032390211558498780803238091925402878871059708106213703504162832999,
  19995326402773833553207196590622808505547443523750970375738981396588337910289,
  5143583711361588952673350526320181330406047695593201009385718506918735286622,
  15436006486881920976813738625999473183944244531070780793506388892313517319583,
  16660446760173633166698660166238066533278664023818938868110282615200613695857,
  4966065365695755376133119391352131079892396024584848298231004326013366253934,
  20683781957411705574951987677641476019618457561419278856689645563561076926702,
  17280836839165902792086432296371645107551519324565649849400948918605456875699,
  17045635513701208892073056357048619435743564064921155892004135325530808465371,
  17055032967194400710390142791334572297458033582458169295920670679093585707295,
  15727174639569115300068198908071514334002742825679221638729902577962862163505,
  1001755657610446661315902885492677747789366510875120894840818704741370398633,
  18638547332826171619311285502376343504539399518545103511265465604926625041234,
  6751954224763196429755298529194402870632445298969935050224267844020826420799,
  3526747115904224771452549517614107688674036840088422555827581348280834879405,
  15705897908180497062880001271426561999724005008972544196300715293701537574122,
  574386695213920937259007343820417029802510752426579750428758189312416867750,
  15973040855000600860816974646787367136127946402908768408978806375685439868553,
  20934130413948796333037139460875996342810005558806621330680156931816867321122,
  6918585327145564636398173845411579411526758237572034236476079610890705810764,
  14158163500813182062258176233162498241310167509137716527054939926126453647182,
  4164602626597695668474100217150111342272610479949122406544277384862187287433,
  12146526846507496913615390662823936206892812880963914267275606265272996025304,
  10153527926900017763244212043512822363696541810586522108597162891799345289938,
  13564663485965299104296214940873270349072051793008946663855767889066202733588,
  5612449256997576125867742696783020582952387615430650198777254717398552960096,
  12151885480032032868507892738683067544172874895736290365318623681886999930120,
  380452237704664384810613424095477896605414037288009963200982915188629772177,
  9067557551252570188533509616805287919563636482030947363841198066124642069518,
  21280306817619711661335268484199763923870315733198162896599997188206277056900,
  5567165819557297006750252582140767993422097822227408837378089569369734876257,
  10411936321072105429908396649383171465939606386380071222095155850987201580137,
  21338390051413922944780864872652000187403217966653363270851298678606449622266,
  12156296560457833712186127325312904760045212412680904475497938949653569234473,
  4271647814574748734312113971565139132510281260328947438246615707172526380757,
  9061738206062369647211128232833114177054715885442782773131292534862178874950,
  10134551893627587797380445583959894183158393780166496661696555422178052339133,
  8932270237664043612366044102088319242789325050842783721780970129656616386103,
  3339412934966886386194449782756711637636784424032779155216609410591712750636,
  9704903972004596791086522314847373103670545861209569267884026709445485704400,
  17467570179597572575614276429760169990940929887711661192333523245667228809456]

def mT2 : List (List ℕ) := [
  [2910766817845651019878574839501801340070030115151021261302834310722729507541,
   19727366863391167538122140361473584127147630672623100827934084310230022599144],
  [5776684794125549462448597414050232243778680302179439492664047328281728356345,
   8348174920934122550483593999453880006756108121341067172388445916328941978568]]

def cT3 : List ℕ := [
  6745197990210204598374042828761989596302876299545964402857411729872131034734,
  426281677759936592021316809065178817848084678679510574715894138690250139748,
  4014188762916583598888942667424965430287497824629657219807941460227372577781,
  21328925083209914769191926116470334003273872494252651254811226518870906634704,
  19525217621804205041825319248827370085205895195618474548469181956339322154226,
  1402547928439424661186498190603111095981986484908825517071607587179649375482,
  18320863691943690091503704046057443633081959680694199244583676572077409194605,
  17709820605501892134371743295301255810542620360751268064484461849423726103416,
  15970119011175710804034336110979394557344217932580634635707518729185096681010,
  9818625905832534778628436765635714771300533913823445439412501514317783880744,
  6235167673500273618358172865171408902079591030551453531218774338170981503478,
  12575685815457815780909564540589853169226710664203625668068862277336357031324,
  7381963244739421891665696965695211188125933529845348367882277882370864309593,
  14214782117460029685087903971105962785460806586237411939435376993762368956406,
  13382692957873425730537487257409819532582973556007555550953772737680185788165,
  2203881792421502412097043743980777162333765109810562102330023625047867378813,
  2916799379096386059941979057020673941967403377243798575982519638429287573544,
  4341714036313630002881786446132415875360643644216758539961571543427269293497,
  2340590164268886572738332390117165591168622939528604352383836760095320678310,
  5222233506067684445011741833180208249846813936652202885155168684515636170204,
  7963328565263035669460582454204125526132426321764384712313576357234706922961,
  1394121618978136816716817287892553782094854454366447781505650417569234586889,
  20251767894547536128245030306810919879363877532719496013176573522769484883301,
  141695147295366035069589946372747683366709960920818122842195372849143476473,
  15919677773886738212551540894030218900525794162097204800782557234189587084981,
  2616624285043480955310772600732442182691089413248613225596630696960447611520,
  4740655602437503003625476760295930165628853341577914460831224100471301981787,
  19201590924623513311141753466125212569043677014481753075022686585593991810752,
  12116486795864712158501385780203500958268173542001460756053597574143933465696,
  8481222075475748672358154589993007112877289817336436741649507712124418867136,
  5181207870440376967537721398591028675236553829547043817076573656878024336014,
  1576305643467537308202593927724028147293702201461402534316403041563704263752,
  2555752030748925341265856133642532487884589978209403118872788051695546807407,
  18840924862590752659304250828416640310422888056457367520753407434927494649454,
  14593453114436356872569019099482380600010961031449147888385564231161572479535,
  20826991704411880672028799007667199259549645488279985687894219600551387252871,
  9159011389589751902277217485643457078922343616356921337993871236707687166408,
  5605846325255071220412087261490782205304876403716989785167758520729893194481,
  1148784255964739709393622058074925404369763692117037208398835319441214134867,
  20945896491956417459309978192328611958993484165135279604807006821513499894540,
  229312996389666104692157009189660162223783309871515463857687414818018508814,
  21184391300727296923488439338697060571987191396173649012875080956309403646776,
  21853424399738097885762888601689700621597911601971608617330124755808946442758,
  12776298811140222029408960445729157525018582422120161448937390282915768616621,
  7556638921712565671493830639474905252516049452878366640087648712509680826732,
  19042212131548710076857572964084011858520620377048961573689299061399932349935,
  12871359356889933725034558434803294882039795794349132643274844130484166679697,
  3313271555224009399457959221795880655466141771467177849716499564904543504032,
  15080780006046305940429266707255063673138269243146576829483541808378091931472,
  21300668809180077730195066774916591829321297484129506780637389508430384679582,
  20480395468049323836126447690964858840772494303543046543729776750771407319822,
  10034492246236387932307199011778078115444704411143703430822959320969550003883,
  19584962776865783763416938001503258436032522042569001300175637333222729790225,
  20155726818439649091211122042505326538030503429443841583127932647435472711802,
  13313554736139368941495919643765094930693458639277286513236143495391474916777,
  14606609055603079181113315307204024259649959674048912770003912154260692161833,
  5563317320536360357019805881367133322562055054443943486481491020841431450882,
  10535419877021741166931390532371024954143141727751832596925779759801808223060,
  12025323200952647772051708095132262602424463606315130667435888188024371598063,
  2906495834492762782415522961458044920178260121151056598901462871824771097354,
  19131970618309428864375891649512521128588657129006772405220584460225143887876,
  8896386073442729425831367074375892129571226824899294414632856215758860965449,
  7748212315898910829925509969895667732958278025359537472413515465768989125274,
  422974903473869924285294686399247660575841594104291551918957116218939002865,
  6398251826151191010634405259351528880538837895394722626439957170031528482771,
  18978082967849498068717608127246258727629855559346799025101476822814831852169,
  19150742296744826773994641927898928595714611370355487304294875666791554590142,
  12896891575271590393203506752066427004153880610948642373943666975402674068209,
  9546270356416926575977159110423162512143435321217584886616658624852959369669,
  2159256158967802519099187112783460402410585039950369442740637803310736339200,
  8911064487437952102278704807713767893452045491852457406400757953039127292263,
  745203718271072817124702263707270113474103371777640557877379939715613501668,
  19313999467876585876087962875809436559985619524211587308123441305315685710594,
  13254105126478921521101199309550428567648131468564858698707378705299481802310,
  1842081783060652110083740461228060164332599013503094142244413855982571335453,
  9630707582521938235113899367442877106957117302212260601089037887382200262598,
  5066637850921463603001689152130702510691309665971848984551789224031532240292,
  4222575506342961001052323857466868245596202202118237252286417317084494678062,
  2919565560395273474653456663643621058897649501626354982855207508310069954086,
  6828792324689892364977311977277548750189770865063718432946006481461319858171,
  2245543836264212411244499299744964607957732316191654500700776604707526766099,
  19602444885919216544870739287153239096493385668743835386720501338355679311704,
  8239538512351936341605373169291864076963368674911219628966947078336484944367,
  15053013456316196458870481299866861595818749671771356646798978105863499965417,
  7173615418515925804810790963571435428017065786053377450925733428353831789901,
  8239211677777829016346247446855147819062679124993100113886842075069166957042,
  15330855478780269194281285878526984092296288422420009233557393252489043181621,
  10014883178425964324400942419088813432808659204697623248101862794157084619079,
  14014440630268834826103915635277409547403899966106389064645466381170788813506,
  3580284508947993352601712737893796312152276667249521401778537893620670305946,
  2559754020964039399020874042785294258009596917335212876725104742182177996988,
  14898657953331064524657146359621913343900897440154577299309964768812788279359,
  2094037260225570753385567402013028115218264157081728958845544426054943497065,
  18051086536715129874440142649831636862614413764019212222493256578581754875930,
  21680659279808524976004872421382255670910633119979692059689680820959727969489,
  13950668739013333802529221454188102772764935019081479852094403697438884885176,
  9703845704528288130475698300068368924202959408694460208903346143576482802458,
  12064310080154762977097567536495874701200266107682637369509532768346427148165,
  16970760937630487134309762150133050221647250855182482010338640862111040175223,
  9790997389841527686594908620011261506072956332346095631818178387333642218087,
  16314772317774781682315680698375079500119933343877658265473913556101283387175,
  82044870826814863425230825851780076663078706675282523830353041968943811739,
  21696416499108261787701615667919260888528264686979598953977501999747075085778,
  327771579314982889069767086599893095509690747425186236545716715062234528958,
  4606746338794869835346679399457321301521448510419912225455957310754258695442,
  64499140292086295251085369317820027058256893294990556166497635237544139149,
  10455028514626281809317431738697215395754892241565963900707779591201786416553,
  10421411526406559029881814534127830959833724368842872558146891658647152404488,
  18848084335930758908929996602136129516563864917028006334090900573158639401697,
  13844582069112758573505569452838731733665881813247931940917033313637916625267,
  13488838454403536473492810836925746129625931018303120152441617863324950564617,
  15742141787658576773362201234656079648895020623294182888893044264221895077688,
  6756884846734501741323584200608866954194124526254904154220230538416015199997,
  7860026400080412708388991924996537435137213401947704476935669541906823414404,
  7871040688194276447149361970364037034145427598711982334898258974993423182255,
  20758972836260983284101736686981180669442461217558708348216227791678564394086,
  21723241881201839361054939276225528403036494340235482225557493179929400043949,
  19428469330241922173653014973246050805326196062205770999171646238586440011910,
  7969200143746252148180468265998213908636952110398450526104077406933642389443,
  10950417916542216146808986264475443189195561844878185034086477052349738113024,
  18149233917533571579549129116652755182249709970669448788972210488823719849654,
  3729796741814967444466779622727009306670204996071028061336690366291718751463,
  5172504399789702452458550583224415301790558941194337190035441508103183388987,
  6686473297578275808822003704722284278892335730899287687997898239052863590235,
  19426913098142877404613120616123695099909113097119499573837343516470853338513,
  5120337081764243150760446206763109494847464512045895114970710519826059751800,
  5055737465570446530938379301905385631528718027725177854815404507095601126720,
  14235578612970484492268974539959119923625505766550088220840324058885914976980,
  653592517890187950103239281291172267359747551606210609563961204572842639923,
  5507360526092411682502736946959369987101940689834541471605074817375175870579,
  7864202866011437199771472205361912625244234597659755013419363091895334445453,
  21294659996736305811805196472076519801392453844037698272479731199885739891648,
  13767183507040326119772335839274719411331242166231012705169069242737428254651,
  810181532076738148308457416289197585577119693706380535394811298325092337781,
  14232321930654703053193240133923161848171310212544136614525040874814292190478,
  16796904728299128263054838299534612533844352058851230375569421467352578781209,
  16256310366973209550759123431979563367001604350120872788217761535379268327259,
  19791658638819031543640174069980007021961272701723090073894685478509001321817,
  7046232469803978873754056165670086532908888046886780200907660308846356865119,
  16001732848952745747636754668380555263330934909183814105655567108556497219752,
  9737276123084413897604802930591512772593843242069849260396983774140735981896,
  11410895086919039954381533622971292904413121053792570364694836768885182251535,
  19098362474249267294548762387533474746422711206129028436248281690105483603471,
  11013788190750472643548844759298623898218957233582881400726340624764440203586,
  2206958256327295151076063922661677909471794458896944583339625762978736821035,
  7171889270225471948987523104033632910444398328090760036609063776968837717795,
  2510237900514902891152324520472140114359583819338640775472608119384714834368,
  8825275525296082671615660088137472022727508654813239986303576303490504107418,
  1481125575303576470988538039195271612778457110700618040436600537924912146613,
  16268684562967416784133317570130804847322980788316762518215429249893668424280,
  4681491452239189664806745521067158092729838954919425311759965958272644506354,
  3131438137839074317765338377823608627360421824842227925080193892542578675835,
  7930402370812046914611776451748034256998580373012248216998696754202474945793,
  8973151117361309058790078507956716669068786070949641445408234962176963060145,
  10223139291409280771165469989652431067575076252562753663259473331031932716923,
  2232089286698717316374057160056566551249777684520809735680538268209217819725,
  16930089744400890347392540468934821520000065594669279286854302439710657571308,
  21739597952486540111798430281275997558482064077591840966152905690279247146674,
  7508315029150148468008716674010060103310093296969466203204862163743615534994,
  11418894863682894988747041469969889669847284797234703818032750410328384432224,
  10895338268862022698088163806301557188640023613155321294365781481663489837917,
  18644184384117747990653304688839904082421784959872380449968500304556054962449,
  7414443845282852488299349772251184564170443662081877445177167932875038836497,
  5391299369598751507276083947272874512197023231529277107201098701900193273851,
  10329906873896253554985208009869159014028187242848161393978194008068001342262,
  4711719500416619550464783480084256452493890461073147512131129596065578741786,
  11943219201565014805519989716407790139241726526989183705078747065985453201504,
  4298705349772984837150885571712355513879480272326239023123910904259614053334,
  9999044003322463509208400801275356671266978396985433172455084837770460579627,
  4908416131442887573991189028182614782884545304889259793974797565686968097291,
  11963412684806827200577486696316210731159599844307091475104710684559519773777,
  20129916000261129180023520480843084814481184380399868943565043864970719708502,
  12884788430473747619080473633364244616344003003135883061507342348586143092592,
  20286808211545908191036106582330883564479538831989852602050135926112143921015,
  16282045180030846845043407450751207026423331632332114205316676731302016331498,
  4332932669439410887701725251009073017227450696965904037736403407953448682093,
  11105712698773407689561953778861118250080830258196150686012791790342360778288,
  21853934471586954540926699232107176721894655187276984175226220218852955976831,
  9807888223112768841912392164376763820266226276821186661925633831143729724792,
  13411808896854134882869416756427789378942943805153730705795307450368858622668,
  17906847067500673080192335286161014930416613104209700445088168479205894040011,
  14554387648466176616800733804942239711702169161888492380425023505790070369632,
  4264116751358967409634966292436919795665643055548061693088119780787376143967,
  2401104597023440271473786738539405349187326308074330930748109868990675625380,
  12251645483867233248963286274239998200789646392205783056343767189806123148785,
  15331181254680049984374210433775713530849624954688899814297733641575188164316,
  13108834590369183125338853868477110922788848506677889928217413952560148766472,
  6843160824078397950058285123048455551935389277899379615286104657075620692224,
  10151103286206275742153883485231683504642432930275602063393479013696349676320,
  7074320081443088514060123546121507442501369977071685257650287261047855962224,
  11413928794424774638606755585641504971720734248726394295158115188173278890938,
  7312756097842145322667451519888915975561412209738441762091369106604423801080,
  7181677521425162567568557182629489303281861794357882492140051324529826589361,
  15123155547166304758320442783720138372005699143801247333941013553002921430306,
  13409242754315411433193860530743374419854094495153957441316635981078068351329]

def mT3 : List (List ℕ) := [
  [7511745149465107256748700652201246547602992235352608707588321460060273774987,
   10370080108974718697676803824769673834027675643658433702224577712625900127200,
   19705173408229649878903981084052839426532978878058043055305024233888854471533],
  [18732019378264290557468133440468564866454307626475683536618613112504878618481,
   20870176810702568768751421378473869562658540583882454726129544628203806653987,
   7266061498423634438633389053804536045105766754026813321943009179476902321146],
  [9131299761947733513298312097611845208338517739621853568979632113419485819303,
   10595341252162738537912664445405114076324478519622938027420701542910180337937,
   11597556804922396090267472882856054602429588299176362916247939723151043581408]]

end PoseidonConstants

open PoseidonConstants

/-! ## The permutation -/

namespace Poseidon

/-- `x^5 mod F`. -/
def pow5 (v : ℕ) : ℕ :=
  let v2 := v * v % field
  let v4 := v2 * v2 % field
  v4 * v % field

/-- `M * state`. -/
def mix (state : List ℕ) (m : List (List ℕ)) : List ℕ :=
  m.map fun row => (List.zipWith (· * ·) row state).sum % field

/-- Round `x` for a state of `t` lanes. -/
def round (c : List ℕ) (m : List (List ℕ)) (nRoundsP t : ℕ) (state : List ℕ) (x : ℕ) : List ℕ :=
  let added := List.zipWith (fun s k => (s + k) % field) state (c.drop (x * t))
  let inFullRound := x < nRoundsF / 2 || x ≥ nRoundsF / 2 + nRoundsP
  let boxed := if inFullRound then added.map pow5 else
    match added with
    | s :: rest => pow5 s :: rest
    | [] => []
  mix boxed m

def core (inputs : List ℕ) (c : List ℕ) (m : List (List ℕ)) : ℕ :=
  let t := inputs.length + 1
  let nRoundsP := nRoundsP.getD (t - 2) 0
  let state := 0 :: inputs.map (· % field)
  ((List.range (nRoundsF + nRoundsP)).foldl (round c m nRoundsP t) state).headD 0

def hash1 (x : ℕ) : ℕ := core [x] cT2 mT2

def hash2 (a b : ℕ) : ℕ := core [a, b] cT3 mT3

/-! ### Every lane is reduced -/

theorem field_pos : 0 < field := by decide

theorem lt_field_of_mem_round {c : List ℕ} {m : List (List ℕ)} {nRoundsP t : ℕ} {state : List ℕ}
    {x v : ℕ} (hv : v ∈ round c m nRoundsP t state x) : v < field := by
  obtain ⟨row, -, rfl⟩ := List.mem_map.mp hv
  exact Nat.mod_lt _ field_pos

theorem core_lt (inputs c : List ℕ) (m : List (List ℕ)) : core inputs c m < field := by
  dsimp only [core]
  generalize nRoundsP.getD (inputs.length + 1 - 2) 0 = rounds
  have hsucc : nRoundsF + rounds = nRoundsF - 1 + rounds + 1 := by
    unfold nRoundsF
    omega
  -- the last round ends in `mix`, which reduces what it returns
  rw [hsucc, List.range_succ, List.foldl_append, List.foldl_cons, List.foldl_nil]
  cases hlast : round c m rounds (inputs.length + 1) (List.foldl _ _ _) (nRoundsF - 1 + rounds) with
  | nil => exact field_pos
  | cons v rest => exact lt_field_of_mem_round (by rw [hlast]; exact List.mem_cons_self)

theorem hash1_lt (x : ℕ) : hash1 x < field := core_lt _ _ _

theorem hash2_lt (a b : ℕ) : hash2 a b < field := core_lt _ _ _

end Poseidon

end ZeroAuth.Android
